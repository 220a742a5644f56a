import HandleProtocol.Sampling
import Mathlib.Algebra.Group.Nat.Defs
import Mathlib.Data.List.Basic

/-!
# What can be drawn

Some bytes make a draw come to a value, whatever follows them.  Every number that fits
into a word can be drawn as one.  Every number below a count can be drawn, and nothing
else, and every member of a list can be selected.  For these each value has several
words that stand for it, and the greatest of them is never rejected.
-/

namespace HandleProtocol.Sampling

/-! ## Bytes -/

/-- The bytes of a number, the lowest byte first. -/
def bytes : Nat → Nat → List UInt8
  | 0, _ => []
  | size + 1, number => .ofNat number :: bytes size (number / 256)

@[simp] theorem length_bytes (size number : Nat) : (bytes size number).length = size := by
  induction size generalizing number with
  | zero => rfl
  | succ size ih => rw [bytes, List.length_cons, ih]

theorem littleEndian_bytes {size number : Nat} (h : number < 256 ^ size) :
    littleEndian (bytes size number) = number := by
  induction size generalizing number with
  | zero =>
      rw [Nat.pow_zero, Nat.lt_one_iff] at h
      rw [h]
      rfl
  | succ size ih =>
      have hrest : number / 256 < 256 ^ size := by
        rw [Nat.div_lt_iff_lt_mul (by decide)]
        rwa [Nat.pow_succ] at h
      have hbyte : (UInt8.ofNat number).toNat = number % 256 := UInt8.toNat_ofNat'
      rw [bytes, littleEndian, ih hrest, hbyte, Nat.mod_add_div]

theorem littleEndian_lt (source : List UInt8) : littleEndian source < 256 ^ source.length := by
  induction source with
  | nil => decide
  | cons byte rest ih =>
      have hbyte := byte.toNat_lt
      rw [littleEndian, List.length_cons, Nat.pow_succ]
      omega

theorem littleEndian_take_lt (size : Nat) (source : List UInt8) :
    littleEndian (source.take size) < 256 ^ size :=
  Nat.lt_of_lt_of_le (littleEndian_lt _)
    (Nat.pow_le_pow_right (by decide) (List.length_take_le _ _))

/-! ## Draws -/

section

variable {α β : Type} {draw : Draw α} {next : α → Draw β}

/-- These bytes make a draw come to this value, whatever follows. -/
def Reads (draw : Draw α) (source : List UInt8) (value : α) : Prop :=
  ∀ rest, draw (source ++ rest) = some (value, rest)

theorem bind_apply (source : List UInt8) :
    (draw >>= next) source = (draw source).bind fun drawn => next drawn.1 drawn.2 := rfl

theorem bind_eq_some_iff {source rest : List UInt8} {value : β} :
    (draw >>= next) source = some (value, rest) ↔
      ∃ drawn left, draw source = some (drawn, left) ∧
        next drawn left = some (value, rest) := by
  rw [bind_apply, Option.bind_eq_some_iff]
  exact Prod.exists

theorem value?_eq_some_iff {source : List UInt8} {value : α} :
    value? draw source = some value ↔ ∃ rest, draw source = some (value, rest) := by
  simp [value?]

theorem Reads.value? {source : List UInt8} {value : α} (h : Reads draw source value) :
    Sampling.value? draw source = some value := by
  have hdraw := h []
  rw [List.append_nil] at hdraw
  exact value?_eq_some_iff.2 ⟨[], hdraw⟩

theorem Reads.pure (value : α) : Reads (pure value) [] value := fun _ => rfl

theorem Reads.bind {first second : List UInt8} {drawn : α} {value : β}
    (hfirst : Reads draw first drawn) (hsecond : Reads (next drawn) second value) :
    Reads (draw >>= next) (first ++ second) value := by
  intro rest
  rw [List.append_assoc, bind_eq_some_iff]
  exact ⟨drawn, second ++ rest, hfirst _, hsecond rest⟩

/-! ## Words and numbers below a count -/

theorem Reads.word {size number : Nat} (h : number < 256 ^ size) :
    Reads (word size) (bytes size number) number := by
  intro rest
  have hlength := length_bytes size number
  rw [Sampling.word, List.take_left' hlength, List.drop_left' hlength, littleEndian_bytes h]

/-- Every index has a word, and the greatest of its words is not rejected. -/
theorem exists_word {size count index : Nat} (hcount : count ≤ size) (hindex : index < count) :
    ∃ word < size, word * count / size = index ∧ size % count ≤ word * count % size := by
  let top := (index + 1) * size - 1
  have hdivision : count * (top / count) + top % count = top := Nat.div_add_mod top count
  have hleft : top % count < count := Nat.mod_lt top (by omega)
  have htop : (index + 1) * size = index * size + size := Nat.succ_mul index size
  have hproduct : top / count * count = (size - 1 - top % count) + index * size := by
    rw [Nat.mul_comm]
    omega
  have hbelow : size - 1 - top % count < size := by omega
  refine ⟨top / count, ?_, ?_, ?_⟩
  · have hlater : (index + 1) * size ≤ count * size := Nat.mul_le_mul_right size hindex
    apply Nat.lt_of_mul_lt_mul_right (a := count)
    rw [hproduct, Nat.mul_comm size]
    omega
  · rw [hproduct, Nat.add_mul_div_right _ _ (by omega), Nat.div_eq_of_lt hbelow, Nat.zero_add]
  · have hrejected : size % count ≤ size - count := by
      rw [Nat.mod_eq_sub_mod hcount]
      exact Nat.mod_le _ _
    rw [hproduct, Nat.add_mul_mod_self_right, Nat.mod_eq_of_lt hbelow]
    omega

theorem mul_div_lt {size count word : Nat} (hword : word < size) (hcount : 0 < count) :
    word * count / size < count := by
  rw [Nat.div_lt_iff_lt_mul (by omega), Nat.mul_comm count]
  exact Nat.mul_lt_mul_of_pos_right hword hcount

/-- Every index below a count can be drawn. -/
theorem exists_reads_below {count index : Nat} (hcount : count ≤ UInt32.size)
    (hindex : index < count) : ∃ source, Reads (below count) source index := by
  obtain ⟨number, hnumber, hdrawn, haccepted⟩ := exists_word hcount hindex
  refine ⟨bytes 4 number, ?_⟩
  intro rest
  have hword : littleEndian ((bytes 4 number ++ rest).take 4) = number := by
    rw [List.take_left' (length_bytes 4 number), littleEndian_bytes hnumber]
  rw [below.eq_def, hword, if_pos haccepted, hdrawn, List.drop_left' (length_bytes 4 number)]

theorem lt_of_below {count index : Nat} {source rest : List UInt8} (hcount : 0 < count)
    (h : below count source = some (index, rest)) : index < count := by
  fun_induction below count source with
  | case1 source product haccepted =>
      cases h
      exact mul_div_lt (littleEndian_take_lt 4 source) hcount
  | case2 => cases h
  | case3 product _ byte rest ih => exact ih h

/-! ## Selections -/

theorem exists_select? {choices : List α} {word : Nat} (hchoices : choices ≠ [])
    (hword : word < UInt64.size) : ∃ choice, select? choices word = some choice := by
  have hindex : word * choices.length / UInt64.size < choices.length :=
    mul_div_lt hword (List.length_pos_iff.2 hchoices)
  exact ⟨choices[word * choices.length / UInt64.size], List.getElem?_eq_getElem hindex⟩

/-- Every choice is selected by some word. -/
theorem exists_select?_eq {choices : List α} {choice : α}
    (hchoices : choices.length ≤ UInt64.size) (hchoice : choice ∈ choices) :
    ∃ word < UInt64.size, select? choices word = some choice := by
  obtain ⟨index, hindex, hchoice⟩ := List.mem_iff_getElem.1 hchoice
  obtain ⟨word, hword, hselected, -⟩ := exists_word hchoices hindex
  refine ⟨word, hword, ?_⟩
  rw [select?, hselected, List.getElem?_eq_getElem hindex, hchoice]

/-! ## Lists -/

theorem length_of_replicate {count : Nat} {source rest : List UInt8} {values : List α}
    (h : replicate draw count source = some (values, rest)) : values.length = count := by
  induction count generalizing source values with
  | zero =>
      cases h
      rfl
  | succ count ih =>
      rw [replicate, bind_eq_some_iff] at h
      obtain ⟨first, left, -, h⟩ := h
      obtain ⟨others, last, hothers, h⟩ := bind_eq_some_iff.1 h
      cases h
      rw [List.length_cons, ih hothers]

theorem exists_reads_replicate {values : List α}
    (h : ∀ value ∈ values, ∃ source, Reads draw source value) :
    ∃ source, Reads (replicate draw values.length) source values := by
  induction values with
  | nil => exact ⟨[], .pure []⟩
  | cons value rest ih =>
      obtain ⟨⟨first, hfirst⟩, hrest⟩ := List.forall_mem_cons.1 h
      obtain ⟨later, hlater⟩ := ih hrest
      exact ⟨first ++ (later ++ []), hfirst.bind (hlater.bind (.pure _))⟩

end

end HandleProtocol.Sampling
