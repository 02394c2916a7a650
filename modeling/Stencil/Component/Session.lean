import Stencil.Failure

/-!
# Generators and how far they have been read

A generator gives each of its items once. Whoever reads it next gets what is left, so a rendering pass
has to remember how far each generator has been read. That, and the number of generators made so far,
is the `Session` of a pass.

`drawItem` asks for the item at a position: it is given if it has not been given before. Reading the
items of a generator from first to last and asking for each is therefore reading what is left of it.
-/

namespace Stencil

/-- What a rendering pass remembers. -/
structure Session where
  /-- The number of generators made. -/
  made : Nat := 0
  /-- The number of items drawn from each generator that has been read. -/
  drawn : List (Nat × Nat) := []

namespace Session

/-- The number of items drawn from a generator. -/
def count (s : Session) (id : Nat) : Nat := (s.drawn.lookup id).getD 0

/-- The session after drawing the item at a position. -/
def advance (s : Session) (id position : Nat) : Session :=
  { s with drawn := (id, position + 1) :: s.drawn.filter fun entry => entry.1 != id }

end Session

/-- How many trees a tree may go on in, one inside the other, unless it is said otherwise. -/
def depthLimit : Nat := 1000

/-- Work that reads and makes generators and may fail. -/
abbrev Pass := StateT Session (Except Failure)

/-- A result that is there already is given as it is. -/
theorem liftM_ok {α : Type} (a : α) : (liftM (Except.ok a : Except Failure α) : Pass α) = pure a := rfl

/-- A new generator. -/
def makeGenerator (items : List Value) : Pass Value := fun s =>
  .ok (.generator s.made items, { s with made := s.made + 1 })

/-- Whether the item at a position of a generator is still to be had; if so, it is drawn. -/
def drawItem (id position : Nat) : Pass Bool := fun s =>
  if s.count id ≤ position then .ok (true, s.advance id position) else .ok (false, s)

theorem Session.count_advance_self (s : Session) (id position : Nat) :
    (s.advance id position).count id = position + 1 := by
  simp [Session.count, Session.advance]

/-- An item is drawn only once. -/
theorem drawItem_twice (id position : Nat) (s : Session) (h : s.count id ≤ position) :
    (do let _ ← drawItem id position; drawItem id position : Pass Bool) s =
      .ok (false, s.advance id position) := by
  simp [drawItem, bind, StateT.bind, Except.bind, h, Session.count_advance_self]

end Stencil
