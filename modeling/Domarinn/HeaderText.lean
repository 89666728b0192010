/-
The headers of a request, and how their values are read as text.

A value is any bytes that the protocol lets through; it has a text only where all of them are
visible.
-/
import Mathlib.Data.List.Basic

/-- A byte that a header value can be read with: visible ASCII, a space or a tab. -/
def isVisible (b : UInt8) : Bool := (32 ≤ b && b < 127) || b == 9

def byteChar (b : UInt8) : Char := Char.ofNat b.toNat

/-- `HeaderValue::to_str` of the `http` crate: a value is read as its characters, and only where
every byte is visible. -/
structure HeaderReader where
  toStr : List UInt8 → Option (List Char)
  toStr_text : ∀ value text, toStr value = some text → text = value.map byteChar
  toStr_isSome : ∀ value, (toStr value).isSome ↔ ∀ b ∈ value, isVisible b = true

/-- A reader that does what is documented. -/
def HeaderReader.documented : HeaderReader where
  toStr := fun value => if value.all isVisible then some (value.map byteChar) else none
  toStr_text := by
    intro value text h
    split_ifs at h
    exact (Option.some.inj h).symm
  toStr_isSome := by
    intro value
    split_ifs with h
    · exact iff_of_true rfl (List.all_eq_true.mp h)
    · exact iff_of_false Bool.false_ne_true (mt List.all_eq_true.mpr h)

/-- The header lines of a request, by their names in lower case. -/
abbrev RequestHeaders := List (String × List UInt8)

/-- `get_all`. -/
def RequestHeaders.getAll (headers : RequestHeaders) (name : String) : List (List UInt8) :=
  (headers.filter fun line => line.1 = name).map Prod.snd
