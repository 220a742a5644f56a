/-!
The value that a handle stores.

A payload is a signed 32-bit word.  It is empty until the handle has been read,
the sentinel while there is data to be had, and empty again after a close.
-/

namespace HandleProtocol

structure Payload where
  value : Int32
  deriving DecidableEq, Repr

namespace Payload

def empty : Payload := ⟨0⟩

def sentinel : Payload := ⟨42⟩

def toInt (p : Payload) : Int := p.value.toInt

/-- The payload that stands for a number; only numbers of 32 bits have one. -/
def ofInt? (n : Int) : Option Payload :=
  if Int32.minValue.toInt ≤ n ∧ n ≤ Int32.maxValue.toInt then some ⟨Int32.ofInt n⟩ else none

def isEmpty (p : Payload) : Bool := p = empty

def text (p : Payload) : String := p.toInt.repr

def inspect (p : Payload) : String := "Payload(" ++ p.text ++ ")"

theorem toInt_injective {p q : Payload} (h : p.toInt = q.toInt) : p = q := by
  cases p
  cases q
  simpa [toInt, Int32.toInt_inj] using h

@[simp] theorem ofInt?_toInt (p : Payload) : ofInt? p.toInt = some p := by
  have hlow := Int32.minValue_le_toInt p.value
  have hhigh := Int32.toInt_le p.value
  simp only [ofInt?, toInt, hlow, hhigh, and_self, if_true, Int32.ofInt_toInt]

@[simp] theorem isEmpty_empty : empty.isEmpty = true := rfl

@[simp] theorem isEmpty_sentinel : sentinel.isEmpty = false := by decide

theorem isEmpty_iff {p : Payload} : p.isEmpty = true ↔ p = empty := by
  simp [isEmpty]

end Payload

end HandleProtocol
