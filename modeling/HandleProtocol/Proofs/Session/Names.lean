import HandleProtocol.Session.Run
import Mathlib.Data.List.Sort

/-!
# One name of a store

What a request does is seen under its own name; under any other name nothing is
changed.  A register keeps at most one value under a name, so what is told of its
entries and concerns one name is told of the value under this name, and the entries
are what is kept under the names, in their order.
-/

namespace HandleProtocol.Session

namespace Register

variable {α β : Type}

theorem get?_isSome_of_mem {register : Register α} {entry : String × α}
    (h : entry ∈ register.entries) : (register.get? entry.1).isSome = true := by
  rw [get?, Option.isSome_map, List.find?_isSome]
  exact ⟨entry, h, by simp⟩

theorem flatMap_entries (register : Register α) (name : String)
    (f : String × α → List β)
    (h : ∀ entry ∈ register.entries, entry.1 ≠ name → f entry = []) :
    register.entries.flatMap f =
      (register.get? name).toList.flatMap fun value => f (name, value) := by
  obtain ⟨entries, hordered⟩ := register
  simp only [get?] at h ⊢
  induction entries with
  | nil => rfl
  | cons head rest ih =>
      rw [List.pairwise_cons] at hordered
      obtain ⟨hhead, hrest⟩ := hordered
      obtain ⟨hfirst, hlater⟩ := List.forall_mem_cons.1 h
      by_cases hname : head.1 = name
      · have hothers : ∀ entry ∈ rest, entry.1 ≠ name := by
          intro entry hentry heq
          exact (hhead entry hentry).ne (hname.trans heq.symm)
        have hnothing : rest.flatMap f = [] := by
          rw [List.flatMap_eq_nil_iff]
          exact fun entry hentry => hlater entry hentry (hothers entry hentry)
        rw [List.flatMap_cons, hnothing, List.find?_cons_of_pos (by simpa using hname)]
        simp [← hname]
      · rw [List.flatMap_cons, hfirst hname, List.nil_append, ih hrest hlater,
          List.find?_cons_of_neg (by simpa using hname)]

theorem get?_eq_some_iff {register : Register α} {name : String} {value : α} :
    register.get? name = some value ↔ (name, value) ∈ register.entries := by
  have hvalues := register.flatMap_entries name
    (fun entry => if entry.1 = name then [entry.2] else []) (fun _ _ hne => if_neg hne)
  have hmem : value ∈ register.entries.flatMap
      (fun entry => if entry.1 = name then [entry.2] else []) ↔
        (name, value) ∈ register.entries := by
    simp [List.mem_flatMap]
  rw [← hmem, hvalues]
  cases register.get? name <;> simp [eq_comm]

/-- The entries of a register, told from any names in order that leave none out. -/
theorem entries_eq_filterMap (register : Register α) {names : List String}
    (hordered : names.Pairwise Precedes)
    (hnames : ∀ name, (register.get? name).isSome = true → name ∈ names) :
    register.entries =
      names.filterMap fun name => (register.get? name).map fun value => (name, value) := by
  let before (first second : String × α) : Prop := Precedes first.1 second.1
  have : Std.Irrefl before := ⟨fun entry => Precedes.irrefl entry.1⟩
  have : Std.Antisymm before :=
    ⟨fun _ _ h h' => absurd (Precedes.trans h h') (Precedes.irrefl _)⟩
  apply List.Pairwise.eq_of_mem_iff (r := before) register.ordered
  · apply hordered.filterMap
    intro first second h entry hentry other hother
    obtain ⟨_, _, rfl⟩ := Option.map_eq_some_iff.1 hentry
    obtain ⟨_, _, rfl⟩ := Option.map_eq_some_iff.1 hother
    exact h
  · rintro ⟨name, value⟩
    rw [← get?_eq_some_iff, List.mem_filterMap]
    constructor
    · intro h
      exact ⟨name, hnames name (by rw [h]; rfl), by rw [h]; rfl⟩
    · rintro ⟨other, -, h⟩
      obtain ⟨_, hvalue, hentry⟩ := Option.map_eq_some_iff.1 h
      cases hentry
      exact hvalue

end Register

theorem step_of_name {request : Request} {name : String} (h : request.name = some name)
    (store : Store) :
    step store request =
      (⟨(request.respond (store.get? name)).answer,
        (request.respond (store.get? name)).slot.map Held.view,
        (request.respond (store.get? name)).events⟩,
        store.put name (request.respond (store.get? name)).slot) := by
  simp only [step, h]

theorem step_of_no_name {request : Request} (h : request.name = none) (store : Store) :
    step store request = (⟨.malformed, none, []⟩, store) := by
  simp only [step, h]

theorem get?_step_of_name {request : Request} {name : String} (h : request.name = some name)
    (store : Store) :
    (step store request).2.get? name = (request.respond (store.get? name)).slot := by
  rw [step_of_name h, Register.get?_put_self]

theorem get?_step_of_ne {request : Request} {name : String} (h : request.name ≠ some name)
    (store : Store) : (step store request).2.get? name = store.get? name := by
  cases hname : request.name with
  | none => rw [step_of_no_name hname]
  | some other =>
      have hne : name ≠ other := by
        rintro rfl
        exact h hname
      rw [step_of_name hname, Register.get?_put_of_ne _ _ hne]

end HandleProtocol.Session
