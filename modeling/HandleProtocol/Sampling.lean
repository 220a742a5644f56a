import HandleProtocol.Lifecycle

/-!
Drawing operations out of bytes.

The bytes are read in order, and zeros follow when they have run out.  Numbers
are little-endian.  A length is drawn by multiplying a word of 32 bits with the
number of possible lengths and dividing by the number of words; words that would
favour some lengths are rejected and drawn again.  An operation is selected by a
word of 64 bits in the same way, without rejection.
-/

namespace HandleProtocol.Sampling

/-- A draw takes bytes from the front and may come to nothing. -/
abbrev Draw (α : Type) := StateT (List UInt8) Option α

/-! ## Words -/

/-- The number that bytes stand for, the lowest byte first. -/
def littleEndian : List UInt8 → Nat
  | [] => 0
  | byte :: rest => byte.toNat + 256 * littleEndian rest

/-- Draw a word of this many bytes; bytes that are missing count as zeros. -/
def word (size : Nat) : Draw Nat := fun source =>
  some (littleEndian (source.take size), source.drop size)

@[simp] theorem littleEndian_nil : littleEndian [] = 0 := rfl

/-! ## Lengths -/

/--
Draw a number below `count` from words of 32 bits.  A word is accepted if the low
half of its product with `count` is at least `UInt32.size % count`, and the high half
is then the number.  Where only zeros are left and zero is not accepted, there is
no number to be drawn.
-/
def below (count : Nat) (source : List UInt8) : Option (Nat × List UInt8) :=
  let product := littleEndian (source.take 4) * count
  if UInt32.size % count ≤ product % UInt32.size then
    some (product / UInt32.size, source.drop 4)
  else
    match source with
    | [] => none
    | byte :: rest => below count ((byte :: rest).drop 4)
termination_by source.length

def length (bound : Nat) : Draw Nat := below (bound + 1)

/-! ## Operations -/

def select? {α : Type} (choices : List α) (word : Nat) : Option α :=
  choices[word * choices.length / UInt64.size]?

def operation : Draw Operation := do
  let word ← word 8
  select? Operation.all word

def replicate {α : Type} (draw : Draw α) : Nat → Draw (List α)
  | 0 => return []
  | count + 1 => do
      let first ← draw
      let rest ← replicate draw count
      return first :: rest

/-- Draw operations in any order, as many as a length up to the bound. -/
def operations (bound : Nat) : Draw (List Operation) := do
  let count ← length bound
  replicate operation count

/--
The operations that words select from what each state permits, beginning in this
state.  A word that selects nothing is passed over.
-/
def permittedPath (state : State) : List Nat → List Operation
  | [] => []
  | word :: rest =>
      match select? state.permitted word with
      | none => permittedPath state rest
      | some operation =>
          match state.transition operation with
          | .ok next => operation :: permittedPath next rest
          | .error _ => permittedPath state rest

/-- Draw operations that a fresh handle goes through without a refusal, as many as
a length up to the bound. -/
def permittedOperations (bound : Nat) : Draw (List Operation) := do
  let count ← length bound
  let words ← replicate (word 8) count
  return permittedPath .initial words

def value? {α : Type} (draw : Draw α) (source : List UInt8) : Option α :=
  (draw source).map Prod.fst

end HandleProtocol.Sampling
