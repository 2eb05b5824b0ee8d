import SeqStore.Element.Basic

/-!
Texts that are compared without regard to the case of the letters A to Z. They are shown
with the case they came with, and an empty one has no place in JSON.
-/

namespace SeqStore

structure Caseless where
  text : String
  deriving Repr

namespace Caseless

/-- The text with its letters A to Z in lower case. -/
def folded (c : Caseless) : String := c.text.map Char.toLower

instance : BEq Caseless where
  beq a b := a.folded == b.folded

theorem beq_eq (a b : Caseless) :
    (a == b) = (a.text.toList.map Char.toLower == b.text.toList.map Char.toLower) := by
  change (a.text.map Char.toLower == b.text.map Char.toLower) = _
  rw [Bool.eq_iff_iff, beq_iff_eq, beq_iff_eq, ← String.toList_inj, String.toList_map,
    String.toList_map]

instance : EquivBEq Caseless where
  rfl := by
    intro a
    exact BEq.rfl (a := a.folded)
  symm := by
    intro a b h
    exact BEq.symm (a := a.folded) h
  trans := by
    intro a b c hab hbc
    exact BEq.trans (a := a.folded) hab hbc

instance : Display Caseless where
  pieces c := [c.text]

instance : Feed Caseless where
  feed c := Feed.text c.folded

def decode (v : Json) : Decoder Caseless := do
  let text ← Element.text v
  if text.isEmpty then throw .emptyCaseless
  return ⟨text⟩

instance : Element Caseless where
  debug _ _ c := Text.quoted c.text
  encode c := if c.text.isEmpty then .error .emptyCaseless else .ok (.string c.text)
  decode := decode
  feed? := some Feed.feed

end Caseless

end SeqStore
