import HandleProtocol.Proofs.Session.Names
import Mathlib.Data.List.Dedup

/-!
# Names are kept apart

A request sees nothing but what is kept under its name, and changes nothing else.  So
what happens under a name in a session is what would happen in a session of its own,
whatever other requests come in between, and the session ends as these would, one
after another.
-/

namespace HandleProtocol.Session

/-! ## The requests of one name -/

def requestsOf (name : String) (requests : List Request) : List Request :=
  requests.filter fun request => request.name = some name

/-- What a session answered to the requests of one name. -/
def entriesOf (name : String) (requests : List Request) (entries : List Entry) :
    List Entry :=
  ((requests.zip entries).filter fun answered => answered.1.name = some name).map Prod.snd

/-- The names that requests are about, each of them once and in order. -/
def namesOf (requests : List Request) : List String :=
  (requests.filterMap Request.name).dedup.mergeSort fun first second => ¬ Precedes second first

section

variable {request : Request} {name : String}

theorem requestsOf_cons_of_name (h : request.name = some name) (rest : List Request) :
    requestsOf name (request :: rest) = request :: requestsOf name rest := by
  simp [requestsOf, h]

theorem requestsOf_cons_of_ne (h : request.name ≠ some name) (rest : List Request) :
    requestsOf name (request :: rest) = requestsOf name rest := by
  simp [requestsOf, h]

theorem entriesOf_cons_of_name (h : request.name = some name) (rest : List Request)
    (entry : Entry) (entries : List Entry) :
    entriesOf name (request :: rest) (entry :: entries) =
      entry :: entriesOf name rest entries := by
  simp [entriesOf, h]

theorem entriesOf_cons_of_ne (h : request.name ≠ some name) (rest : List Request)
    (entry : Entry) (entries : List Entry) :
    entriesOf name (request :: rest) (entry :: entries) = entriesOf name rest entries := by
  simp [entriesOf, h]

end

theorem mem_namesOf {requests : List Request} {name : String} :
    name ∈ namesOf requests ↔ ∃ request ∈ requests, request.name = some name := by
  simp [namesOf]

theorem pairwise_namesOf (requests : List Request) :
    (namesOf requests).Pairwise Precedes := by
  have hsorted : (namesOf requests).Pairwise fun first second => ¬ Precedes second first := by
    refine (List.pairwise_mergeSort ?_ ?_ _).imp (fun h => by simpa using h)
    · intro first second third h h'
      simp only [decide_not, Bool.not_eq_true', decide_eq_false_iff_not] at h h' ⊢
      intro hthird
      by_cases heq : second = third
      · exact h (heq ▸ hthird)
      · exact h ((precedes_of_not_precedes h' (Ne.symm heq)).trans hthird)
    · intro first second
      by_cases h : Precedes second first
      · have h' : ¬ Precedes first second := fun h' => Precedes.irrefl _ (h.trans h')
        simp [h']
      · simp [h]
  have hnodup : (namesOf requests).Nodup :=
    (List.mergeSort_perm _ _).nodup_iff.2 (List.nodup_dedup _)
  exact (hsorted.and hnodup).imp fun ⟨h, hne⟩ => precedes_of_not_precedes h (Ne.symm hne)

/-! ## Runs -/

/-- Stores that keep the same under a name answer its requests alike, and keep the same
under it afterwards. -/
theorem run_requestsOf {store own : Store} {name : String}
    (h : store.get? name = own.get? name) (requests : List Request) :
    entriesOf name requests (run store requests).1 =
        (run own (requestsOf name requests)).1 ∧
      (run store requests).2.get? name =
        (run own (requestsOf name requests)).2.get? name := by
  induction requests generalizing store own with
  | nil => exact ⟨rfl, h⟩
  | cons request rest ih =>
      by_cases hname : request.name = some name
      · have hentry : (step store request).1 = (step own request).1 := by
          rw [step_of_name hname, step_of_name hname, h]
        have hslot : (step store request).2.get? name = (step own request).2.get? name := by
          rw [get?_step_of_name hname, get?_step_of_name hname, h]
        obtain ⟨hentries, hlast⟩ := ih hslot
        rw [requestsOf_cons_of_name hname, run_cons, run_cons, entriesOf_cons_of_name hname,
          hentry, hentries]
        exact ⟨rfl, hlast⟩
      · have hslot : (step store request).2.get? name = own.get? name := by
          rw [get?_step_of_ne hname, h]
        rw [requestsOf_cons_of_ne hname, run_cons, entriesOf_cons_of_ne hname]
        exact ih hslot

theorem get?_run_of_forall_ne {requests : List Request} {name : String}
    (h : ∀ request ∈ requests, request.name ≠ some name) (store : Store) :
    (run store requests).2.get? name = store.get? name := by
  have hnone : requestsOf name requests = [] := by
    rw [requestsOf, List.filter_eq_nil_iff]
    exact fun request hmem => by simpa using h request hmem
  rw [(run_requestsOf rfl requests).2, hnone, run_nil]

/-! ## Ends -/

theorem finish_eq_flatMap (store : Store) {names : List String}
    (hordered : names.Pairwise Precedes)
    (hnames : ∀ name, (store.get? name).isSome = true → name ∈ names) :
    finish store = names.flatMap fun name => endSlot (store.get? name) := by
  rw [finish, Register.values, store.entries_eq_filterMap hordered hnames,
    List.map_filterMap, List.filterMap_eq_flatMap_toList, List.flatMap_assoc]
  apply List.flatMap_congr
  intro name _
  cases store.get? name with
  | none => rfl
  | some held => exact List.append_nil held.release

theorem mem_namesOf_of_isSome {requests : List Request} {name : String}
    (h : ((run .empty requests).2.get? name).isSome = true) : name ∈ namesOf requests := by
  by_contra hunused
  have hnone : ∀ request ∈ requests, request.name ≠ some name := fun request hmem hname =>
    hunused (mem_namesOf.2 ⟨request, hmem, hname⟩)
  rw [get?_run_of_forall_ne hnone] at h
  cases h

/-- A session of one name ends with the handle of this name. -/
theorem ending_requestsOf (name : String) (requests : List Request) :
    (transcript (requestsOf name requests)).ending =
      endSlot ((run .empty requests).2.get? name) := by
  have hown : ∀ other,
      ((run .empty (requestsOf name requests)).2.get? other).isSome = true →
        other ∈ [name] := by
    intro other hother
    obtain ⟨request, hrequest, hname⟩ := mem_namesOf.1 (mem_namesOf_of_isSome hother)
    rw [requestsOf, List.mem_filter, hname] at hrequest
    simpa using hrequest.2
  rw [transcript, finish_eq_flatMap _ (List.pairwise_singleton _ name) hown,
    (run_requestsOf rfl requests).2]
  simp

/--
The names of a session do not interfere.  What is answered, shown and raised at the
requests of a name is what a session of these requests alone gives, in the same order;
and the session ends as these sessions end, one after another in the order of the
names.
-/
theorem names_do_not_interfere (requests : List Request) :
    (∀ name : String,
      entriesOf name requests (transcript requests).entries =
        (transcript (requestsOf name requests)).entries) ∧
      (namesOf requests).Pairwise Precedes ∧
      (∀ name : String,
        name ∈ namesOf requests ↔ ∃ request ∈ requests, request.name = some name) ∧
      (transcript requests).ending =
        (namesOf requests).flatMap fun name =>
          (transcript (requestsOf name requests)).ending := by
  refine ⟨fun name => (run_requestsOf rfl requests).1, pairwise_namesOf requests,
    fun name => mem_namesOf, ?_⟩
  simp only [ending_requestsOf]
  exact finish_eq_flatMap _ (pairwise_namesOf requests) fun name => mem_namesOf_of_isSome

end HandleProtocol.Session
