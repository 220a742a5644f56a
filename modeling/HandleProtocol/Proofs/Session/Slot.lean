import HandleProtocol.Session.Command

/-!
# The commands of one name

What is under a name is changed by the commands of this name only.  So the life
of a slot is a list of commands, each obeyed on the slot that the one before it
left.
-/

namespace HandleProtocol.Session

def obeyAll (slot : Option Held) : List Command → List Response
  | [] => []
  | command :: rest => obey slot command :: obeyAll (obey slot command).slot rest

def slotAfter (slot : Option Held) : List Command → Option Held
  | [] => slot
  | command :: rest => slotAfter (obey slot command).slot rest

@[simp] theorem length_obeyAll (slot : Option Held) (commands : List Command) :
    (obeyAll slot commands).length = commands.length := by
  induction commands generalizing slot with
  | nil => rfl
  | cons command rest ih => simp [obeyAll, ih]

theorem obeyAll_append (slot : Option Held) (first second : List Command) :
    obeyAll slot (first ++ second) =
      obeyAll slot first ++ obeyAll (slotAfter slot first) second := by
  induction first generalizing slot with
  | nil => rfl
  | cons command rest ih => simp [obeyAll, slotAfter, ih]

theorem getElem?_obeyAll (slot : Option Held) (commands : List Command) (k : Nat) :
    (obeyAll slot commands)[k]? =
      commands[k]?.map (obey (slotAfter slot (commands.take k))) := by
  induction commands generalizing slot k with
  | nil => simp [obeyAll]
  | cons command rest ih =>
      cases k with
      | zero => simp [obeyAll, slotAfter]
      | succ k => simp [obeyAll, slotAfter, ih]

end HandleProtocol.Session
