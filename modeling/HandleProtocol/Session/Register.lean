/-!
Values kept under names, in the order of the names.

Names are ordered by their UTF-8 bytes.  A register holds each name at most once;
`get?` says what is kept under a name, and `put` is the one way to change it.
-/

namespace HandleProtocol.Session

/-! ## The order of names -/

def utf8Bytes (name : String) : List UInt8 := name.toUTF8.data.toList

def Precedes (first second : String) : Prop := utf8Bytes first < utf8Bytes second

instance (first second : String) : Decidable (Precedes first second) :=
  inferInstanceAs (Decidable (_ < _))

theorem utf8Bytes_injective {first second : String} (h : utf8Bytes first = utf8Bytes second) :
    first = second := by
  apply String.toByteArray_inj.1
  exact ByteArray.ext (Array.toList_inj.1 h)

theorem Precedes.irrefl (name : String) : ¬ Precedes name name :=
  List.lt_irrefl (utf8Bytes name)

theorem Precedes.trans {first second third : String} (h : Precedes first second)
    (h' : Precedes second third) : Precedes first third :=
  List.lt_trans h h'

theorem Precedes.ne {first second : String} (h : Precedes first second) :
    first ≠ second := by
  rintro rfl
  exact Precedes.irrefl _ h

theorem precedes_of_not_precedes {first second : String} (h : ¬ Precedes first second)
    (hne : first ≠ second) : Precedes second first := by
  by_cases h' : Precedes second first
  · exact h'
  · exact absurd (utf8Bytes_injective (List.le_antisymm h' h)) hne

/-! ## Entries -/

variable {α : Type}

/-- The entries with what is kept under a name replaced by a slot: its value, or
nothing at all. -/
def place (name : String) (slot : Option α) : List (String × α) → List (String × α)
  | [] => slot.toList.map fun value => (name, value)
  | entry :: rest =>
      if entry.1 = name then
        (slot.toList.map fun value => (name, value)) ++ rest
      else if Precedes name entry.1 then
        (slot.toList.map fun value => (name, value)) ++ entry :: rest
      else
        entry :: place name slot rest

private theorem name_of_mem_place {name : String} {slot : Option α}
    {entries : List (String × α)} {entry : String × α}
    (h : entry ∈ place name slot entries) : entry.1 = name ∨ entry ∈ entries := by
  induction entries with
  | nil =>
      simp only [place, List.mem_map] at h
      obtain ⟨value, _, rfl⟩ := h
      exact .inl rfl
  | cons head rest ih =>
      simp only [place] at h
      split at h
      · simp only [List.mem_append, List.mem_map] at h
        rcases h with ⟨value, _, rfl⟩ | h
        · exact .inl rfl
        · exact .inr (List.mem_cons_of_mem head h)
      · split at h
        · simp only [List.mem_append, List.mem_map] at h
          rcases h with ⟨value, _, rfl⟩ | h
          · exact .inl rfl
          · exact .inr h
        · rcases List.mem_cons.1 h with rfl | h
          · exact .inr List.mem_cons_self
          · exact (ih h).imp_right (List.mem_cons_of_mem head)

private theorem pairwise_place {name : String} {slot : Option α}
    {entries : List (String × α)}
    (h : entries.Pairwise fun first second => Precedes first.1 second.1) :
    (place name slot entries).Pairwise fun first second => Precedes first.1 second.1 := by
  induction entries with
  | nil => cases slot <;> simp [place]
  | cons head rest ih =>
      rw [List.pairwise_cons] at h
      simp only [place]
      split
      · rename_i hhead
        cases slot with
        | none => simpa using h.2
        | some value =>
            simp only [Option.toList_some, List.map_cons, List.map_nil, List.singleton_append,
              List.pairwise_cons]
            exact ⟨fun entry hentry => hhead ▸ h.1 entry hentry, h.2⟩
      · rename_i hne
        split
        · rename_i hbefore
          cases slot with
          | none => simpa using h
          | some value =>
              simp only [Option.toList_some, List.map_cons, List.map_nil,
                List.singleton_append, List.pairwise_cons, List.mem_cons, forall_eq_or_imp]
              exact ⟨⟨hbefore, fun entry hentry => hbefore.trans (h.1 entry hentry)⟩, h⟩
        · rename_i hbefore
          rw [List.pairwise_cons]
          refine ⟨fun entry hentry => ?_, ih h.2⟩
          rcases name_of_mem_place hentry with hname | hold
          · rw [hname]
            exact precedes_of_not_precedes hbefore (Ne.symm hne)
          · exact h.1 entry hold

/-! ## Registers -/

structure Register (α : Type) where
  entries : List (String × α)
  ordered : entries.Pairwise fun first second => Precedes first.1 second.1

namespace Register

def empty : Register α := ⟨[], .nil⟩

def get? (register : Register α) (name : String) : Option α :=
  (register.entries.find? fun entry => entry.1 = name).map Prod.snd

/-- Keep the value of a slot under a name; an empty slot frees the name. -/
def put (register : Register α) (name : String) (slot : Option α) : Register α :=
  ⟨place name slot register.entries, pairwise_place register.ordered⟩

def values (register : Register α) : List α := register.entries.map Prod.snd

@[simp] theorem get?_empty (name : String) : (empty : Register α).get? name = none := rfl

private theorem find?_place_self {name : String} {slot : Option α}
    {entries : List (String × α)}
    (h : entries.Pairwise fun first second => Precedes first.1 second.1) :
    ((place name slot entries).find? fun entry => entry.1 = name).map Prod.snd = slot := by
  induction entries with
  | nil => cases slot <;> simp [place]
  | cons head rest ih =>
      rw [List.pairwise_cons] at h
      simp only [place]
      split
      · rename_i hhead
        cases slot with
        | none =>
            simp only [Option.toList_none, List.map_nil, List.nil_append, Option.map_eq_none_iff,
              List.find?_eq_none]
            intro entry hentry
            simpa [hhead] using (h.1 entry hentry).ne.symm
        | some value => simp
      · rename_i hne
        split
        · rename_i hbefore
          cases slot with
          | none =>
              simp only [Option.toList_none, List.map_nil, List.nil_append,
                Option.map_eq_none_iff, List.find?_eq_none, List.mem_cons, forall_eq_or_imp]
              refine ⟨by simpa using hne, fun entry hentry => ?_⟩
              simpa using (hbefore.trans (h.1 entry hentry)).ne.symm
          | some value => simp
        · simpa [hne] using ih h.2

private theorem find?_place_of_ne {name other : String} {slot : Option α}
    {entries : List (String × α)} (hne : other ≠ name) :
    ((place name slot entries).find? fun entry => entry.1 = other) =
      entries.find? fun entry => entry.1 = other := by
  induction entries with
  | nil => cases slot <;> simp [place, hne.symm]
  | cons head rest ih =>
      simp only [place]
      split
      · rename_i hhead
        cases slot <;> simp [hhead, hne.symm]
      · split
        · cases slot <;> simp [hne.symm]
        · simp [List.find?_cons, ih]

/-- A write changes what is kept under its own name, and nothing else. -/
theorem get?_put (register : Register α) (name other : String) (slot : Option α) :
    (register.put name slot).get? other = if other = name then slot else register.get? other := by
  split
  · rename_i h
    subst h
    exact find?_place_self register.ordered
  · rename_i h
    exact congrArg (Option.map Prod.snd) (find?_place_of_ne h)

@[simp] theorem get?_put_self (register : Register α) (name : String) (slot : Option α) :
    (register.put name slot).get? name = slot := by
  simp [get?_put]

theorem get?_put_of_ne (register : Register α) {name other : String} (slot : Option α)
    (h : other ≠ name) : (register.put name slot).get? other = register.get? other := by
  simp [get?_put, h]

end Register

end HandleProtocol.Session
