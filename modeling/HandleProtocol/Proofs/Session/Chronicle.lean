import HandleProtocol.Proofs.Session.Names
import HandleProtocol.Proofs.Session.Turn
import Mathlib.Logic.Function.Basic

/-!
# The chronicle of a session

A session keeps its handles under names, and a name may be given to one handle
after another.  The chronicle tells the handles apart: each is known by its name
and by the position of the request that made it, and whatever a session raises or
shows is told of one of them.
-/

namespace HandleProtocol.Session

structure Identity where
  name : String
  made : Nat
  deriving DecidableEq, Repr

inductive Sign where
  | raised (event : Event)
  | shown (view : View)
  deriving DecidableEq, Repr

namespace Sign

def event? : Sign → Option Event
  | .raised event => some event
  | .shown _ => none

def view? : Sign → Option View
  | .raised _ => none
  | .shown view => some view

end Sign

structure Notice where
  handle : Identity
  sign : Sign
  deriving DecidableEq, Repr

/-- For each name the position of the request that made the handle under it. -/
abbrev Tenants := String → Option Nat

def Change.tenant (index : Nat) (before : Option Nat) : Change → Option Nat
  | .keeps => before
  | .ends => none
  | .makes => some index

def tenantsAfter (tenants : Tenants) (index : Nat) (request : Request) (answer : Answer) :
    Tenants :=
  match request.name with
  | none => tenants
  | some name =>
      Function.update tenants name ((request.change answer).tenant index (tenants name))

def notices (name : String) (tenant : Option Nat) (signs : List Sign) : List Notice :=
  tenant.toList.flatMap fun made => signs.map fun sign => ⟨⟨name, made⟩, sign⟩

/-- What is told at one request: its events are of the handle that was under the
name before, its view is of the one that is there afterwards. -/
def toldAt (request : Request) (entry : Entry) (before after : Tenants) : List Notice :=
  match request.name with
  | none => []
  | some name =>
      notices name (before name) (entry.events.map .raised) ++
        notices name (after name) (entry.view.toList.map .shown)

def tell (tenants : Tenants) (index : Nat) (store : Store) : List Request → List Notice
  | [] => store.entries.flatMap fun (name, held) =>
      notices name (tenants name) (held.release.map .raised)
  | request :: rest =>
      let taken := step store request
      let after := tenantsAfter tenants index request taken.1.answer
      toldAt request taken.1 tenants after ++ tell after (index + 1) taken.2 rest

def chronicle (requests : List Request) : List Notice :=
  tell (fun _ => none) 0 .empty requests

def signsOf (handle : Identity) (told : List Notice) : List Sign :=
  (told.filter fun notice => notice.handle = handle).map Notice.sign

/-! ## Nothing is left out -/

/-- There is a tenant under a name exactly if there is a handle. -/
structure Housed (tenants : Tenants) (index : Nat) (store : Store) : Prop where
  isSome_eq : ∀ name, (tenants name).isSome = (store.get? name).isSome
  before : ∀ name made, tenants name = some made → made < index

theorem housed_empty : Housed (fun _ => none) 0 .empty :=
  ⟨fun _ => rfl, fun _ _ h => nomatch h⟩

variable {tenants : Tenants} {index : Nat} {store : Store} {request : Request}

theorem tenantsAfter_of_name {name : String} {answer : Answer} (h : request.name = some name) :
    tenantsAfter tenants index request answer name =
      (request.change answer).tenant index (tenants name) := by
  simp only [tenantsAfter, h, Function.update_self]

theorem tenantsAfter_of_ne {name : String} {answer : Answer} (h : request.name ≠ some name) :
    tenantsAfter tenants index request answer name = tenants name := by
  unfold tenantsAfter
  cases hname : request.name with
  | none => rfl
  | some other =>
      have hne : name ≠ other := by
        rintro rfl
        exact h hname
      simp only [Function.update_of_ne hne]

/-- The tenant after a request is there exactly if the slot is not empty. -/
theorem isSome_tenant {slot : Option Held} {tenant : Option Nat}
    (h : tenant.isSome = slot.isSome) :
    ((request.change (request.respond slot).answer).tenant index tenant).isSome =
      (request.respond slot).slot.isSome := by
  cases hchange : request.change (request.respond slot).answer with
  | keeps =>
      have hform := congrArg Option.isSome (respond_of_keeps hchange).form_eq
      rw [Option.isSome_map, Option.isSome_map] at hform
      rw [hform]
      exact h
  | ends =>
      rw [respond_of_ends hchange]
      rfl
  | makes =>
      obtain ⟨held, hrespond, -⟩ := respond_of_makes hchange
      rw [hrespond]
      rfl

theorem Housed.step (h : Housed tenants index store) (request : Request) :
    let taken := step store request
    Housed (tenantsAfter tenants index request taken.1.answer) (index + 1) taken.2 := by
  intro taken
  constructor
  case isSome_eq =>
    intro name
    by_cases hname : request.name = some name
    · rw [tenantsAfter_of_name hname, get?_step_of_name hname]
      simp only [taken, step_of_name hname]
      exact isSome_tenant (h.isSome_eq name)
    · rw [tenantsAfter_of_ne hname, get?_step_of_ne hname]
      exact h.isSome_eq name
  case before =>
    intro name made hmade
    by_cases hname : request.name = some name
    · rw [tenantsAfter_of_name hname] at hmade
      cases hchange : request.change taken.1.answer with
      | keeps =>
          rw [hchange] at hmade
          exact Nat.lt_succ_of_lt (h.before name made hmade)
      | ends =>
          rw [hchange] at hmade
          cases hmade
      | makes =>
          rw [hchange] at hmade
          cases hmade
          exact Nat.lt_succ_self index
    · rw [tenantsAfter_of_ne hname] at hmade
      exact Nat.lt_succ_of_lt (h.before name made hmade)

theorem map_sign_notices {name : String} {tenant : Option Nat} {signs : List Sign}
    (h : signs ≠ [] → tenant.isSome = true) :
    (notices name tenant signs).map Notice.sign = signs := by
  cases tenant with
  | some made => simp [notices, Function.comp_def]
  | none =>
      have hnone : signs = [] := by
        by_contra hne
        cases h hne
      rw [hnone]
      rfl

/-- An empty slot raises nothing. -/
theorem events_respond_none (request : Request) : (request.respond none).events = [] := by
  cases hchange : request.change (request.respond none).answer with
  | keeps => exact (respond_of_keeps hchange).silent (by simp)
  | ends => rw [respond_of_ends hchange]; rfl
  | makes =>
      obtain ⟨held, hrespond, -⟩ := respond_of_makes hchange
      rw [hrespond]
      rfl

theorem Housed.map_sign_toldAt (h : Housed tenants index store) (request : Request) :
    let taken := Session.step store request
    (toldAt request taken.1 tenants
        (tenantsAfter tenants index request taken.1.answer)).map Notice.sign =
      taken.1.events.map .raised ++ taken.1.view.toList.map .shown := by
  intro taken
  have hafter := h.step request
  cases hname : request.name with
  | none => simp only [toldAt, hname, taken, step_of_no_name hname]; rfl
  | some name =>
      have hevents : taken.1.events = (request.respond (store.get? name)).events := by
        simp only [taken, step_of_name hname]
      have hview : taken.1.view = (taken.2.get? name).map Held.view := by
        rw [get?_step_of_name hname]
        simp only [taken, step_of_name hname]
      simp only [toldAt, hname, List.map_append]
      rw [map_sign_notices, map_sign_notices]
      · intro hshown
        rw [hafter.isSome_eq]
        cases hslot : taken.2.get? name with
        | some held => rfl
        | none =>
            rw [hview, hslot] at hshown
            exact absurd rfl hshown
      · intro hraised
        rw [h.isSome_eq]
        cases hslot : store.get? name with
        | some held => rfl
        | none =>
            rw [hevents, hslot, events_respond_none] at hraised
            exact absurd rfl hraised

/-- What a session raises and shows, in order. -/
def signs (store : Store) : List Request → List Sign
  | [] => (finish store).map .raised
  | request :: rest =>
      let taken := step store request
      taken.1.events.map .raised ++ taken.1.view.toList.map .shown ++ signs taken.2 rest

theorem Housed.map_sign_tell (h : Housed tenants index store) (requests : List Request) :
    (tell tenants index store requests).map Notice.sign = signs store requests := by
  induction requests generalizing tenants index store with
  | nil =>
      simp only [tell, signs, finish, Register.values, List.map_flatMap, List.flatMap_map]
      apply List.flatMap_congr
      intro entry hentry
      apply map_sign_notices
      intro _
      rw [h.isSome_eq]
      exact Register.get?_isSome_of_mem hentry
  | cons request rest ih =>
      rw [tell, signs, List.map_append, h.map_sign_toldAt, ih (h.step request)]

theorem filterMap_event?_signs (store : Store) (requests : List Request) :
    (signs store requests).filterMap Sign.event? =
      (run store requests).1.flatMap Entry.events ++ finish (run store requests).2 := by
  induction requests generalizing store with
  | nil => simp [signs, Sign.event?, Function.comp_def]
  | cons request rest ih =>
      rw [signs, List.filterMap_append, ih, run_cons]
      simp [Sign.event?, Function.comp_def]

theorem filterMap_view?_signs (store : Store) (requests : List Request) :
    (signs store requests).filterMap Sign.view? =
      (run store requests).1.filterMap Entry.view := by
  induction requests generalizing store with
  | nil => simp [signs, Sign.view?, Function.comp_def]
  | cons request rest ih =>
      rw [signs, List.filterMap_append, ih, run_cons]
      cases hview : (step store request).1.view <;>
        simp [hview, Sign.view?, Function.comp_def]

end HandleProtocol.Session
