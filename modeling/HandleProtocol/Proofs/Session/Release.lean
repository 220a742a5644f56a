import HandleProtocol.Proofs.Session.Chronicle
import Mathlib.Data.List.Nodup
import Mathlib.Data.List.Perm.Basic

/-!
# Every tracked handle is released once

The signs of a tracked handle end with its release, which carries the state that
the handle showed last; the other handles raise nothing.  A handle is followed
from the request that made it: it stays under its name through requests that keep
it, and the request that ends its life or gives its name away releases it, or else
the end of the session does.
-/

namespace HandleProtocol.Session

/-- The tracked handles that requests make, the first of which is at this position. -/
def born (index : Nat) : List Request → List Entry → List Identity
  | request :: requests, entry :: entries =>
      let made := if request.makesTracked ∧ entry.answer = .outcome .done then
        request.name.toList.map fun name => ⟨name, index⟩ else []
      made ++ born (index + 1) requests entries
  | _, _ => []

/-- The signs end with a release, in the state that was shown last, and have no
other release among them. -/
def ReleasedAsShown (signs : List Sign) : Prop :=
  ∃ earlier view state, signs = earlier ++ [.raised (.released state)] ∧
    (∀ sign ∈ earlier, ∀ event, sign.event? = some event → event.isReleased = false) ∧
    (earlier.filterMap Sign.view?).getLast? = some view ∧
    view.form = .tracked ∧ view.state = some state

def Silent (signs : List Sign) : Prop := ∀ sign ∈ signs, sign.event? = none

theorem releasedAsShown_end {held : Held} (h : held.form = .tracked) :
    ReleasedAsShown (.shown held.view :: held.release.map .raised) := by
  cases held with
  | tracked handle =>
      refine ⟨[.shown (Held.tracked handle).view], _, handle.state, rfl, ?_, rfl, rfl, rfl⟩
      intro sign hsign event hevent
      rw [List.mem_singleton.1 hsign] at hevent
      cases hevent
  | _ => cases h

/-- Events that are no release may come before the last view. -/
theorem ReleasedAsShown.prepend {view : View} {before after : List Sign}
    (h : ReleasedAsShown (.shown view :: after)) {events : List Event} {first : View}
    (hbefore : before = .shown first :: events.map .raised)
    (hevents : ∀ event ∈ events, event.isReleased = false) :
    ReleasedAsShown (before ++ .shown view :: after) := by
  obtain ⟨earlier, last, state, hsigns, hearlier, hlast, hform, hstate⟩ := h
  refine ⟨before ++ earlier, last, state, ?_, ?_, ?_, hform, hstate⟩
  · rw [hsigns, List.append_assoc]
  · intro sign hsign event hevent
    rcases List.mem_append.1 hsign with hsign | hsign
    · rw [hbefore] at hsign
      rcases List.mem_cons.1 hsign with rfl | hsign
      · cases hevent
      · obtain ⟨raised, hraised, rfl⟩ := List.mem_map.1 hsign
        cases hevent
        exact hevents _ hraised
    · exact hearlier sign hsign event hevent
  · rw [List.filterMap_append, List.getLast?_append, hlast]
    rfl

/-! ## The signs of one handle -/

variable {tenants : Tenants} {index : Nat} {store : Store} {request : Request}
  {handle : Identity}

theorem signsOf_append (handle : Identity) (first second : List Notice) :
    signsOf handle (first ++ second) = signsOf handle first ++ signsOf handle second := by
  simp [signsOf]

theorem signsOf_notices (name : String) (tenant : Option Nat) (signs : List Sign) :
    signsOf handle (notices name tenant signs) =
      if name = handle.name ∧ tenant = some handle.made then signs else [] := by
  cases tenant with
  | none => simp [signsOf, notices]
  | some made =>
      have hsame : (⟨name, made⟩ : Identity) = handle ↔
          name = handle.name ∧ some made = some handle.made := by
        cases handle
        simp
      simp only [← hsame, signsOf, notices, Option.toList_some, List.flatMap_cons,
        List.flatMap_nil, List.append_nil, List.filter_map, List.map_map]
      split <;> simp_all [Function.comp_def]

theorem signsOf_toldAt_of_name (h : request.name = some handle.name) (entry : Entry)
    (before after : Tenants) :
    signsOf handle (toldAt request entry before after) =
      (if before handle.name = some handle.made then entry.events.map .raised else []) ++
        (if after handle.name = some handle.made then entry.view.toList.map .shown else []) := by
  simp [toldAt, h, signsOf_append, signsOf_notices]

theorem signsOf_toldAt_of_ne (h : request.name ≠ some handle.name) (entry : Entry)
    (before after : Tenants) : signsOf handle (toldAt request entry before after) = [] := by
  unfold toldAt
  cases hname : request.name with
  | none => rfl
  | some name =>
      have hne : name ≠ handle.name := by
        rintro rfl
        exact h hname
      simp [signsOf_append, signsOf_notices, hne]

theorem signsOf_toldAt_eq_nil {before after : Tenants} (entry : Entry)
    (hbefore : before handle.name ≠ some handle.made)
    (hafter : after handle.name ≠ some handle.made) :
    signsOf handle (toldAt request entry before after) = [] := by
  by_cases hname : request.name = some handle.name
  · rw [signsOf_toldAt_of_name hname, if_neg hbefore, if_neg hafter, List.append_nil]
  · exact signsOf_toldAt_of_ne hname _ _ _

theorem signsOf_tell_nil :
    signsOf handle (tell tenants index store []) =
      if tenants handle.name = some handle.made then
        (endSlot (store.get? handle.name)).map .raised else [] := by
  have hflat : signsOf handle (tell tenants index store []) =
      store.entries.flatMap fun entry =>
        signsOf handle (notices entry.1 (tenants entry.1) (entry.2.release.map .raised)) := by
    simp [tell, signsOf, List.filter_flatMap, List.map_flatMap]
  rw [hflat, Register.flatMap_entries _ handle.name]
  · cases store.get? handle.name with
    | none => simp [endSlot]
    | some held => simp [signsOf_notices, endSlot]
  · intro entry _ hne
    rw [signsOf_notices, if_neg (fun h => hne h.1)]

/-! ## A handle that is gone -/

theorem tenant_ne_of_lt {change : Change} {tenant : Option Nat} {made : Nat}
    (htenant : tenant ≠ some made) (hmade : made < index) :
    change.tenant index tenant ≠ some made := by
  cases change with
  | keeps => exact htenant
  | ends => simp [Change.tenant]
  | makes =>
      simp only [Change.tenant, ne_eq, Option.some.injEq]
      omega

theorem tenantsAfter_ne_of_lt (request : Request) (answer : Answer)
    (htenant : tenants handle.name ≠ some handle.made) (hmade : handle.made < index) :
    tenantsAfter tenants index request answer handle.name ≠ some handle.made := by
  by_cases hname : request.name = some handle.name
  · rw [tenantsAfter_of_name hname]
    exact tenant_ne_of_lt htenant hmade
  · rw [tenantsAfter_of_ne hname]
    exact htenant

theorem signsOf_tell_eq_nil (hmade : handle.made < index)
    (hgone : tenants handle.name ≠ some handle.made) (requests : List Request) :
    signsOf handle (tell tenants index store requests) = [] := by
  induction requests generalizing tenants index store with
  | nil => rw [signsOf_tell_nil, if_neg hgone]
  | cons request rest ih =>
      have hgone' := tenantsAfter_ne_of_lt request (step store request).1.answer hgone hmade
      rw [tell, signsOf_append, signsOf_toldAt_eq_nil _ hgone hgone', List.nil_append]
      exact ih (Nat.lt_succ_of_lt hmade) hgone'

/-! ## A handle under its name -/

/-- A request about the name of a handle either lets it stay, and shows it, or
ends its life and releases it. -/
theorem signsOf_tell_own {held : Held} (hname : request.name = some handle.name)
    (hmade : handle.made < index) (htenant : tenants handle.name = some handle.made)
    (hheld : store.get? handle.name = some held) (rest : List Request) :
    let taken := step store request
    let after := tenantsAfter tenants index request taken.1.answer
    let signs := signsOf handle (tell tenants index store (request :: rest))
    signs = held.release.map .raised ∨
      ∃ next events, after handle.name = some handle.made ∧
        taken.2.get? handle.name = some next ∧ next.form = held.form ∧
        (∀ event ∈ events, event.isReleased = false) ∧
        (held.form ≠ .tracked → events = []) ∧
        signs = events.map .raised ++ .shown next.view ::
          signsOf handle (tell after (index + 1) taken.2 rest) := by
  intro taken after signs
  have hentry : taken.1 = ⟨(request.respond (some held)).answer,
      (request.respond (some held)).slot.map Held.view,
      (request.respond (some held)).events⟩ := by
    simp only [taken, step_of_name hname, hheld]
  have hslot : taken.2.get? handle.name = (request.respond (some held)).slot := by
    rw [get?_step_of_name hname, hheld]
  have hafter : after handle.name =
      (request.change (request.respond (some held)).answer).tenant index
        (some handle.made) := by
    simp only [after, tenantsAfter_of_name hname, htenant, hentry]
  have hsigns : signs = (request.respond (some held)).events.map .raised ++
      (if after handle.name = some handle.made then
        ((request.respond (some held)).slot.map Held.view).toList.map .shown else []) ++
      signsOf handle (tell after (index + 1) taken.2 rest) := by
    change signsOf handle (toldAt request taken.1 tenants after ++
      tell after (index + 1) taken.2 rest) = _
    rw [signsOf_append, signsOf_toldAt_of_name hname, if_pos htenant, hentry]
  -- A handle whose name is free or given to another one has no more signs.
  have hleaves (hgone : after handle.name ≠ some handle.made) :
      signs = (request.respond (some held)).events.map .raised := by
    rw [hsigns, if_neg hgone, signsOf_tell_eq_nil (Nat.lt_succ_of_lt hmade) hgone,
      List.append_nil, List.append_nil]
  cases hchange : request.change (request.respond (some held)).answer with
  | keeps =>
      right
      have hstays : after handle.name = some handle.made := by
        rw [hafter, hchange]
        rfl
      have hkept := respond_of_keeps hchange
      have hform := hkept.form_eq
      cases hnext : (request.respond (some held)).slot with
      | none =>
          rw [hnext] at hform
          cases hform
      | some next =>
          rw [hnext, Option.map_some, Option.map_some, Option.some.injEq] at hform
          refine ⟨next, (request.respond (some held)).events, hstays, hslot.trans hnext, hform,
            hkept.not_released, ?_, ?_⟩
          · intro hother
            exact hkept.silent (by simpa using hother)
          · rw [hsigns, if_pos hstays, hnext]
            simp
  | ends =>
      left
      rw [hleaves, respond_of_ends hchange]
      · rfl
      · rw [hafter, hchange]
        simp [Change.tenant]
  | makes =>
      left
      obtain ⟨made, hmakes, -⟩ := respond_of_makes hchange
      rw [hleaves, hmakes]
      · rfl
      · rw [hafter, hchange, Change.tenant, ne_eq, Option.some.injEq]
        omega

/-- What holds of a handle at its end, and before a request if it does after it,
holds of a handle at any time. -/
theorem tell_induction {P : Held → List Sign → Prop}
    (hends : ∀ held, P held (held.release.map .raised))
    (hstays : ∀ held next events signs, next.form = held.form →
      (∀ event ∈ events, event.isReleased = false) → (held.form ≠ .tracked → events = []) →
        P next signs → P held (events.map .raised ++ .shown next.view :: signs))
    {held : Held} (hmade : handle.made < index)
    (htenant : tenants handle.name = some handle.made)
    (hheld : store.get? handle.name = some held) (requests : List Request) :
    P held (signsOf handle (tell tenants index store requests)) := by
  induction requests generalizing tenants index store held with
  | nil =>
      rw [signsOf_tell_nil, if_pos htenant, hheld]
      exact hends held
  | cons request rest ih =>
      by_cases hname : request.name = some handle.name
      · rcases signsOf_tell_own hname hmade htenant hheld rest with hsigns | hkept
        · rw [hsigns]
          exact hends held
        · obtain ⟨next, events, htenant', hnext, hform, hevents, hsilent, hsigns⟩ := hkept
          rw [hsigns]
          exact hstays held next events _ hform hevents hsilent
            (ih (Nat.lt_succ_of_lt hmade) htenant' hnext)
      · rw [tell, signsOf_append, signsOf_toldAt_of_ne hname, List.nil_append]
        refine ih (Nat.lt_succ_of_lt hmade) ?_ ?_
        · rw [tenantsAfter_of_ne hname, htenant]
        · rw [get?_step_of_ne hname, hheld]

theorem releasedAsShown_tell {held : Held} (hmade : handle.made < index)
    (htenant : tenants handle.name = some handle.made)
    (hheld : store.get? handle.name = some held) (hform : held.form = .tracked)
    (requests : List Request) :
    ReleasedAsShown (.shown held.view ::
      signsOf handle (tell tenants index store requests)) := by
  refine tell_induction (P := fun held signs => held.form = .tracked →
    ReleasedAsShown (.shown held.view :: signs)) ?_ ?_ hmade htenant hheld requests hform
  · intro held hform
    exact releasedAsShown_end hform
  · intro held next events signs hsame hevents _ ih hform
    exact (ih (hsame.trans hform)).prepend rfl hevents

theorem release_eq_nil {held : Held} (h : held.form ≠ .tracked) : held.release = [] := by
  cases held with
  | tracked handle => exact absurd rfl h
  | _ => rfl

theorem silent_tell {held : Held} (hmade : handle.made < index)
    (htenant : tenants handle.name = some handle.made)
    (hheld : store.get? handle.name = some held) (hform : held.form ≠ .tracked)
    (requests : List Request) :
    Silent (signsOf handle (tell tenants index store requests)) := by
  refine tell_induction (P := fun held signs => held.form ≠ .tracked → Silent signs)
    ?_ ?_ hmade htenant hheld requests hform
  · intro held hform
    simp [release_eq_nil hform, Silent]
  · intro held next events signs hsame _ hsilent ih hform
    rw [hsilent hform, List.map_nil, List.nil_append, Silent, List.forall_mem_cons]
    exact ⟨rfl, ih (hsame ▸ hform)⟩

/-! ## A handle from its beginning -/

theorem mem_born_cons {entry : Entry} {requests : List Request} {entries : List Entry} :
    handle ∈ born index (request :: requests) (entry :: entries) ↔
      (handle.made = index ∧ request.name = some handle.name ∧
        request.makesTracked = true ∧ entry.answer = .outcome .done) ∨
      handle ∈ born (index + 1) requests entries := by
  have hnow : handle ∈ (if request.makesTracked ∧ entry.answer = .outcome .done then
      request.name.toList.map (Identity.mk · index) else []) ↔
        handle.made = index ∧ request.name = some handle.name ∧
          request.makesTracked = true ∧ entry.answer = .outcome .done := by
    split
    · rename_i hmade
      rw [List.mem_map]
      constructor
      · rintro ⟨name, hname, rfl⟩
        exact ⟨rfl, Option.mem_toList.1 hname, hmade⟩
      · rintro ⟨rfl, hname, -⟩
        exact ⟨handle.name, Option.mem_toList.2 hname, rfl⟩
    · rename_i hmade
      constructor
      · intro h
        cases h
      · rintro ⟨-, -, h⟩
        exact absurd h hmade
  rw [born, List.mem_append, hnow]

theorem le_of_mem_born {requests : List Request} {entries : List Entry}
    (h : handle ∈ born index requests entries) : index ≤ handle.made := by
  induction requests generalizing index entries with
  | nil => simp [born] at h
  | cons request requests ih =>
      cases entries with
      | nil => simp [born] at h
      | cons entry entries =>
          rcases mem_born_cons.1 h with ⟨hmade, -⟩ | h
          · omega
          · have := ih h
            omega

theorem nodup_born (index : Nat) (requests : List Request) (entries : List Entry) :
    (born index requests entries).Nodup := by
  induction requests generalizing index entries with
  | nil => simp [born]
  | cons request requests ih =>
      cases entries with
      | nil => simp [born]
      | cons entry entries =>
          rw [born, List.nodup_append]
          refine ⟨?_, ih _ _, ?_⟩
          · split
            · cases request.name with
              | none => exact List.nodup_nil
              | some name => simp
            · exact List.nodup_nil
          · intro first hfirst later hlater heq
            have hle := le_of_mem_born hlater
            have hmade : first.made = index := by
              split at hfirst
              · obtain ⟨name, -, rfl⟩ := List.mem_map.1 hfirst
                rfl
              · cases hfirst
            rw [← heq, hmade] at hle
            omega

theorem signsOf_tell_made (hname : request.name = some handle.name)
    (hmade : handle.made = index) (hbefore : tenants handle.name ≠ some handle.made)
    (hchange : request.change (request.respond (store.get? handle.name)).answer = .makes)
    (rest : List Request) :
    let signs := signsOf handle (tell tenants index store (request :: rest))
    (request.makesTracked = true → ReleasedAsShown signs) ∧
      (request.makesTracked = false → Silent signs) := by
  intro signs
  obtain ⟨held, hrespond, htracked⟩ := respond_of_makes hchange
  have hentry : (step store request).1 =
      ⟨.outcome .done, some held.view, endSlot (store.get? handle.name)⟩ := by
    rw [step_of_name hname, hrespond]
    rfl
  have hheld : (step store request).2.get? handle.name = some held := by
    rw [get?_step_of_name hname, hrespond]
    rfl
  have hafter : tenantsAfter tenants index request (step store request).1.answer handle.name =
      some handle.made := by
    rw [hrespond] at hchange
    rw [tenantsAfter_of_name hname, hentry, hmade]
    exact congrArg (Change.tenant index _) hchange
  have hsigns : signs = .shown held.view :: signsOf handle
      (tell (tenantsAfter tenants index request (step store request).1.answer) (index + 1)
        (step store request).2 rest) := by
    simp only [signs, tell]
    rw [signsOf_append, signsOf_toldAt_of_name hname, if_neg hbefore, if_pos hafter, hentry]
    rfl
  have hlt : handle.made < index + 1 := by omega
  rw [hsigns]
  constructor
  · intro h
    exact releasedAsShown_tell hlt hafter hheld (htracked.2 h) rest
  · intro h
    have hform : held.form ≠ .tracked := by
      intro hform
      rw [htracked.1 hform] at h
      cases h
    rw [Silent, List.forall_mem_cons]
    exact ⟨rfl, silent_tell hlt hafter hheld hform rest⟩

theorem signsOf_tell_not_made (hmade : handle.made = index)
    (hbefore : tenants handle.name ≠ some handle.made)
    (hchange : request.name = some handle.name →
      request.change (step store request).1.answer ≠ .makes) (rest : List Request) :
    signsOf handle (tell tenants index store (request :: rest)) = [] := by
  have hafter : tenantsAfter tenants index request (step store request).1.answer
      handle.name ≠ some handle.made := by
    by_cases hname : request.name = some handle.name
    · rw [tenantsAfter_of_name hname]
      cases hkind : request.change (step store request).1.answer with
      | keeps => exact hbefore
      | ends => simp [Change.tenant]
      | makes => exact absurd hkind (hchange hname)
    · rw [tenantsAfter_of_ne hname]
      exact hbefore
  rw [tell, signsOf_append, signsOf_toldAt_eq_nil _ hbefore hafter, List.nil_append]
  exact signsOf_tell_eq_nil (by omega) hafter rest

theorem Housed.tenant_ne (h : Housed tenants index store) (hindex : index ≤ handle.made) :
    tenants handle.name ≠ some handle.made := by
  intro htenant
  have := h.before _ _ htenant
  omega

theorem Housed.fate (h : Housed tenants index store) (hindex : index ≤ handle.made)
    (requests : List Request) :
    let signs := signsOf handle (tell tenants index store requests)
    (handle ∈ born index requests (run store requests).1 → ReleasedAsShown signs) ∧
      (handle ∉ born index requests (run store requests).1 → Silent signs) := by
  induction requests generalizing tenants index store with
  | nil =>
      rw [signsOf_tell_nil, if_neg (h.tenant_ne hindex)]
      exact ⟨fun hborn => by simp [born] at hborn, fun _ => by simp [Silent]⟩
  | cons request rest ih =>
      rw [run_cons]
      simp only [mem_born_cons]
      by_cases hnow : handle.made = index
      · have hlater : handle ∉ born (index + 1) rest (run (Session.step store request).2 rest).1 := by
          intro hborn
          have := le_of_mem_born hborn
          omega
        simp only [hlater, or_false]
        by_cases hmakes : request.name = some handle.name ∧
            request.change (Session.step store request).1.answer = .makes
        · obtain ⟨hname, hchange⟩ := hmakes
          rw [step_of_name hname] at hchange
          have hmade := signsOf_tell_made hname hnow (h.tenant_ne hindex) hchange rest
          have hdone : (Session.step store request).1.answer = .outcome .done := by
            obtain ⟨held, hrespond, -⟩ := respond_of_makes hchange
            rw [step_of_name hname, hrespond]
            rfl
          refine ⟨fun hborn => hmade.1 hborn.2.2.1, fun hnot => hmade.2 ?_⟩
          by_contra htracked
          exact hnot ⟨hnow, hname, by simpa using htracked, hdone⟩
        · rw [signsOf_tell_not_made hnow (h.tenant_ne hindex)
            (fun hname hchange => hmakes ⟨hname, hchange⟩)]
          refine ⟨?_, fun _ => by simp [Silent]⟩
          rintro ⟨-, hname, htracked, hdone⟩
          rw [hdone] at hmakes
          exact absurd ⟨hname, change_of_makesTracked htracked⟩ hmakes
      · -- The handle is not made yet, and nothing is told of it at this request.
        have hindex' : index + 1 ≤ handle.made := by omega
        have hhoused := h.step request
        rw [tell, signsOf_append, signsOf_toldAt_eq_nil _ (h.tenant_ne hindex)
          (hhoused.tenant_ne hindex'), List.nil_append]
        simpa only [hnow, false_and, false_or] using ih hhoused hindex'

/-! ## The count of releases -/

def Sign.isReleased (sign : Sign) : Bool := sign.event?.any Event.isReleased

theorem ReleasedAsShown.countP_eq {signs : List Sign} (h : ReleasedAsShown signs) :
    signs.countP Sign.isReleased = 1 := by
  obtain ⟨earlier, view, state, rfl, hearlier, -⟩ := h
  have hnone : earlier.countP Sign.isReleased = 0 := by
    rw [List.countP_eq_zero]
    intro sign hsign hreleased
    cases sign with
    | raised event =>
        have hnot := hearlier _ hsign event rfl
        simp [Sign.isReleased, Sign.event?, hnot] at hreleased
    | shown view => cases hreleased
  rw [List.countP_append, hnone]
  rfl

theorem Silent.countP_eq {signs : List Sign} (h : Silent signs) :
    signs.countP Sign.isReleased = 0 := by
  rw [List.countP_eq_zero]
  intro sign hsign hreleased
  rw [Sign.isReleased, h sign hsign] at hreleased
  cases hreleased

/-- Which handles are released, in the order of their releases. -/
def releases (told : List Notice) : List Identity :=
  (told.filter fun notice => notice.sign.isReleased).map Notice.handle

theorem count_releases (told : List Notice) (handle : Identity) :
    (releases told).count handle = (signsOf handle told).countP Sign.isReleased := by
  simp only [releases, signsOf, List.count, List.countP_map, List.countP_filter]
  apply List.countP_congr
  intro notice _
  simp [and_comm]

theorem length_releases (told : List Notice) :
    (releases told).length =
      ((told.map Notice.sign).filterMap Sign.event?).countP Event.isReleased := by
  induction told with
  | nil => rfl
  | cons notice told ih =>
      obtain ⟨handle, sign⟩ := notice
      cases sign with
      | shown view => exact ih
      | raised event =>
          have hevents : ((⟨handle, .raised event⟩ :: told).map Notice.sign).filterMap
              Sign.event? = event :: (told.map Notice.sign).filterMap Sign.event? := rfl
          have hsign : (Sign.raised event).isReleased = event.isReleased := rfl
          rw [hevents, List.countP_cons, ← ih, releases, releases, List.filter_cons]
          simp only [hsign]
          split <;> simp

theorem perm_releases_born (requests : List Request) :
    (releases (chronicle requests)).Perm (born 0 requests (transcript requests).entries) := by
  rw [List.perm_iff_count]
  intro handle
  obtain ⟨hborn, hother⟩ := housed_empty.fate (Nat.zero_le handle.made) requests
  rw [count_releases]
  by_cases hmem : handle ∈ born 0 requests (transcript requests).entries
  · rw [List.count_eq_one_of_mem (nodup_born _ _ _) hmem]
    exact (hborn hmem).countP_eq
  · rw [List.count_eq_zero_of_not_mem hmem]
    exact (hother hmem).countP_eq

/--
In a session there are as many releases as tracked handles that were made.  The
chronicle tells all that the session raises and shows, each time of one handle.
The signs of a handle that was made a tracked one end with its only release, in
the state of its last view; no other handle raises anything.
-/
theorem released_exactly_once (requests : List Request) :
    let session := transcript requests
    let events := session.entries.flatMap Entry.events ++ session.ending
    let told := chronicle requests
    let tracked := born 0 requests session.entries
    events.countP Event.isReleased = tracked.length ∧
      (told.map Notice.sign).filterMap Sign.event? = events ∧
      (told.map Notice.sign).filterMap Sign.view? = session.entries.filterMap Entry.view ∧
      (∀ handle ∈ tracked, ReleasedAsShown (signsOf handle told)) ∧
      ∀ notice ∈ told, notice.sign.event? ≠ none → notice.handle ∈ tracked := by
  intro session events told tracked
  have hsigns : told.map Notice.sign = signs .empty requests :=
    housed_empty.map_sign_tell requests
  have hevents : (told.map Notice.sign).filterMap Sign.event? = events := by
    rw [hsigns]
    exact filterMap_event?_signs _ _
  have hfate (handle : Identity) := housed_empty.fate (Nat.zero_le handle.made) requests
  refine ⟨?_, hevents, ?_, fun handle hborn => (hfate handle).1 hborn, ?_⟩
  · rw [← hevents, ← length_releases]
    exact (perm_releases_born requests).length_eq
  · rw [hsigns]
    exact filterMap_view?_signs _ _
  · intro notice hnotice hevent
    by_contra hmem
    refine hevent ((hfate notice.handle).2 hmem notice.sign ?_)
    exact List.mem_map_of_mem (List.mem_filter.2 ⟨hnotice, by simp⟩)

/-- A typed handle is opened and erased; what it is erased to is released in the
state that it was erased in when its name is given to another handle. -/
theorem released_exactly_once_of_erased :
    let requests : List Request :=
      [⟨some "a", some "new", some "typed", none⟩, ⟨some "a", some "call", none, some "open"⟩,
        ⟨some "a", some "erase", none, none⟩, ⟨some "a", some "new", some "unchecked", none⟩]
    let told := chronicle requests
    ⟨"a", 2⟩ ∈ born 0 requests (transcript requests).entries ∧
      ReleasedAsShown (signsOf ⟨"a", 2⟩ told) ∧
      ∃ notice ∈ told, notice.sign.event? ≠ none ∧
        notice.handle ∈ born 0 requests (transcript requests).entries := by
  intro requests told
  have hborn : ⟨"a", 2⟩ ∈ born 0 requests (transcript requests).entries := by decide +kernel
  have hraised : ⟨⟨"a", 2⟩, .raised (.released .open)⟩ ∈ told := by decide +kernel
  obtain ⟨-, -, -, hreleased, htracked⟩ := released_exactly_once requests
  exact ⟨hborn, hreleased _ hborn, _, hraised, by decide, htracked _ hraised (by decide)⟩

end HandleProtocol.Session
