/-
Cursors as text.

A page of runs ends at `created_at:run_id`, a page of the cache at `sort_value:key`, or at
`t:hex:key` where the sort value is a text.  Ids, keys and sort values may hold colons of their
own; a number never does, nor does the hexadecimal form of a text.

* **`decodeCursor_encodeCursor`**, **`decodeEntryCursor_encodeEntryCursor`** — what was encoded
  is decoded.
-/
import Domarinn.Json
import Domarinn.Sql
import Mathlib.Data.Nat.Digits.Defs

open Sql
open Json (hexDigit)

/-! ### Numbers -/

/-- Digits as a number. -/
def parseDigits (digits : List Char) : Option ℕ :=
  if digits.isEmpty || !digits.all Char.isDigit then none
  else some (Nat.ofDigitChars 10 digits 0)

/-- `parse::<i64>`. -/
def parseI64 (raw : String) : Option I64 := do
  let n : ℤ ← match raw.toList with
    | '-' :: digits => (parseDigits digits).map fun n => -(n : ℤ)
    | '+' :: digits => (parseDigits digits).map Int.ofNat
    | digits => (parseDigits digits).map Int.ofNat
  if h : -2 ^ 63 ≤ n ∧ n < 2 ^ 63 then some ⟨n, h⟩ else none

theorem parseDigits_toDigits (n : ℕ) : parseDigits (Nat.toDigits 10 n) = some n := by
  have hall : (Nat.toDigits 10 n).all Char.isDigit = true := List.all_eq_true.mpr fun c hc =>
    Nat.isDigit_of_mem_toDigits (by decide) (by decide) hc
  rw [parseDigits, hall, List.isEmpty_eq_false_iff.mpr Nat.toDigits_ne_nil]
  simp

/-- The digits of a number, with its sign. -/
theorem toList_toString_int (n : ℤ) : (toString n).toList =
    if 0 ≤ n then Nat.toDigits 10 n.toNat else '-' :: Nat.toDigits 10 (-n).toNat := by
  rw [Int.toString_eq_repr]
  cases n with
  | ofNat m => simp [Int.repr]
  | negSucc m => simp [Int.repr]

/-- A number is written without a colon. -/
theorem ne_colon_of_mem_toString {n : ℤ} : ∀ c ∈ (toString n).toList, c ≠ ':' := by
  rw [toList_toString_int]
  have hdigits : ∀ m : ℕ, ∀ c ∈ Nat.toDigits 10 m, c ≠ ':' := by
    rintro m c hc rfl
    exact absurd (Nat.isDigit_of_mem_toDigits (by decide) (by decide) hc) (by decide)
  split
  · exact hdigits _
  · exact List.forall_mem_cons.mpr ⟨by decide, hdigits _⟩

/-- A number is read back. -/
theorem parseI64_toString (n : I64) : parseI64 (toString n.1) = some n := by
  rw [parseI64, toList_toString_int]
  by_cases hsign : 0 ≤ n.1
  · have hread := parseDigits_toDigits n.1.toNat
    have hdigits : ∀ c ∈ Nat.toDigits 10 n.1.toNat, c.isDigit = true := fun c hc =>
      Nat.isDigit_of_mem_toDigits (by decide) (by decide) hc
    have hback : Int.ofNat n.1.toNat = n.1 := Int.toNat_of_nonneg hsign
    rw [if_pos hsign]
    -- the first digit is no sign
    split
    · next heq => exact absurd (hdigits '-' (by rw [heq]; exact List.mem_cons_self)) (by decide)
    · next heq => exact absurd (hdigits '+' (by rw [heq]; exact List.mem_cons_self)) (by decide)
    · simp only [hread, Option.map_some, Option.bind_eq_bind, Option.bind_some, hback, dif_pos n.2]
  · have hback : -((-n.1).toNat : ℤ) = n.1 := by omega
    simp only [if_neg hsign, parseDigits_toDigits, Option.map_some, Option.bind_eq_bind,
      Option.bind_some, Option.pure_def, hback, dif_pos n.2]

/-! ### The cursor of a run -/

/-- `encode_cursor`. -/
def encodeCursor (createdAt : ℤ) (id : String) : String := toString createdAt ++ ":" ++ id

/-- `decode_cursor`. -/
def decodeCursor (cursor : String) : Option (I64 × String) :=
  match cursor.toList.dropWhile (· ≠ ':') with
  | [] => none
  | _ :: id =>
    (parseI64 (String.ofList (cursor.toList.takeWhile (· ≠ ':')))).map fun ms =>
      (ms, String.ofList id)

/-- A text splits at its first colon. -/
theorem split_at_colon {value : List Char} (rest : List Char) (h : ∀ c ∈ value, c ≠ ':') :
    (value ++ ':' :: rest).takeWhile (· ≠ ':') = value ∧
      (value ++ ':' :: rest).dropWhile (· ≠ ':') = ':' :: rest := by
  have hvalue : ∀ c ∈ value, (decide (c ≠ ':')) = true := fun c hc => decide_eq_true (h c hc)
  rw [List.takeWhile_append_of_pos hvalue, List.dropWhile_append_of_pos hvalue]
  simp

theorem decodeCursor_encodeCursor (createdAt : I64) (id : String) :
    decodeCursor (encodeCursor createdAt.1 id) = some (createdAt, id) := by
  have hlist : (encodeCursor createdAt.1 id).toList =
      (toString createdAt.1).toList ++ ':' :: id.toList := by
    rw [encodeCursor, String.toList_append, String.toList_append, List.append_assoc]
    rfl
  obtain ⟨htake, hdrop⟩ := split_at_colon id.toList
    (ne_colon_of_mem_toString (n := createdAt.1))
  rw [decodeCursor, hlist, htake, hdrop]
  simp only [String.ofList_toList, parseI64_toString, Option.map_some]

/-! ### The cursor of an entry -/

/-- The sort value that a cursor carries. -/
inductive CursorValue where
  | int (v : ℤ)
  | text (t : String)
deriving DecidableEq

/-- `split_once(':')`. -/
def splitColon (text : List Char) : Option (List Char × List Char) :=
  match text.dropWhile (· ≠ ':') with
  | [] => none
  | _ :: rest => some (text.takeWhile (· ≠ ':'), rest)

/-- `hex::encode`. -/
def hexEncode (bytes : List UInt8) : List Char :=
  bytes.flatMap fun b => [hexDigit (b.toNat / 16), hexDigit (b.toNat % 16)]

/-- The value of a digit, in either case. -/
def hexVal (c : Char) : Option ℕ :=
  if '0' ≤ c ∧ c ≤ '9' then some (c.toNat - 48)
  else if 'a' ≤ c ∧ c ≤ 'f' then some (c.toNat - 87)
  else if 'A' ≤ c ∧ c ≤ 'F' then some (c.toNat - 55)
  else none

/-- `hex::decode`, which takes pairs of digits. -/
def hexDecode : List Char → Option (List UInt8)
  | [] => some []
  | [_] => none
  | a :: b :: rest => do
    let hi ← hexVal a
    let lo ← hexVal b
    let bytes ← hexDecode rest
    return UInt8.ofNat (16 * hi + lo) :: bytes

/-- `encode_entry_cursor`. -/
def encodeEntryCursor (sortValue : CursorValue) (key : String) : String :=
  match sortValue with
  | .int v => toString v ++ ":" ++ key
  | .text t => "t:" ++ String.ofList (hexEncode t.toUTF8.data.toList) ++ ":" ++ key

/-- `decode_entry_cursor`. -/
def decodeEntryCursor (cursor : String) : Option (CursorValue × String) := do
  let (value, rest) ← splitColon cursor.toList
  if value = ['t'] then
    let (encoded, key) ← splitColon rest
    let bytes ← hexDecode encoded
    let text ← String.fromUTF8? ⟨bytes.toArray⟩
    return (.text text, String.ofList key)
  let v ← parseI64 (String.ofList value)
  return (.int v.1, String.ofList rest)

theorem splitColon_append {value rest : List Char} (h : ∀ c ∈ value, c ≠ ':') :
    splitColon (value ++ ':' :: rest) = some (value, rest) := by
  obtain ⟨htake, hdrop⟩ := split_at_colon rest h
  rw [splitColon, hdrop, htake]

theorem hexVal_hexDigit {n : ℕ} (h : n < 16) : hexVal (hexDigit n) = some n := by
  interval_cases n <;> rfl

theorem hexDigit_ne_colon {n : ℕ} (h : n < 16) : hexDigit n ≠ ':' := by
  interval_cases n <;> decide

/-- What was encoded is decoded, byte by byte. -/
theorem hexDecode_hexEncode (bytes : List UInt8) : hexDecode (hexEncode bytes) = some bytes := by
  induction bytes with
  | nil => rfl
  | cons b bytes ih =>
    have hb := b.toNat_lt
    have hhi : b.toNat / 16 < 16 := by omega
    have hlo : b.toNat % 16 < 16 := Nat.mod_lt _ (by decide)
    have hbyte : UInt8.ofNat (16 * (b.toNat / 16) + b.toNat % 16) = b := by
      rw [Nat.div_add_mod, UInt8.ofNat_toNat]
    rw [hexEncode, List.flatMap_cons, ← hexEncode]
    simp only [List.cons_append, List.nil_append, hexDecode, hexVal_hexDigit hhi,
      hexVal_hexDigit hlo, ih, Option.bind_eq_bind, Option.bind_some, Option.pure_def, hbyte]

theorem ne_colon_of_mem_hexEncode {bytes : List UInt8} : ∀ c ∈ hexEncode bytes, c ≠ ':' := by
  intro c hc
  obtain ⟨b, -, hc⟩ := List.mem_flatMap.mp hc
  have hb := b.toNat_lt
  obtain rfl | hc := List.mem_cons.mp hc
  · exact hexDigit_ne_colon (by omega)
  · rw [List.mem_singleton.mp hc]
    exact hexDigit_ne_colon (Nat.mod_lt _ (by decide))

/-- No number is written `t`. -/
theorem toString_ne_t (n : ℤ) : (toString n).toList ≠ ['t'] := by
  rw [toList_toString_int]
  split
  · intro heq
    have ht : 't' ∈ Nat.toDigits 10 n.toNat := by rw [heq]; exact List.mem_cons_self
    exact absurd (Nat.isDigit_of_mem_toDigits (by decide) (by decide) ht) (by decide)
  · exact fun heq => absurd (List.cons.inj heq).1 (by decide)

theorem fromUTF8?_toUTF8 (t : String) :
    String.fromUTF8? ⟨t.toUTF8.data.toList.toArray⟩ = some t := by
  rw [Array.toArray_toList]
  exact dif_pos t.isValidUTF8

/-- A cursor value holds a 64-bit number, or a text. -/
def CursorValue.Fits : CursorValue → Prop
  | .int v => -2 ^ 63 ≤ v ∧ v < 2 ^ 63
  | .text _ => True

/-- **What was encoded is decoded**, numbers as numbers and texts as texts. -/
theorem decodeEntryCursor_encodeEntryCursor {v : CursorValue} (hv : v.Fits) (key : String) :
    decodeEntryCursor (encodeEntryCursor v key) = some (v, key) := by
  cases v with
  | int n =>
    have hlist : (encodeEntryCursor (.int n) key).toList =
        (toString n).toList ++ ':' :: key.toList := by
      rw [encodeEntryCursor, String.toList_append, String.toList_append, List.append_assoc]
      rfl
    have hread : parseI64 (toString n) = some ⟨n, hv⟩ := parseI64_toString ⟨n, hv⟩
    rw [decodeEntryCursor, hlist, splitColon_append ne_colon_of_mem_toString]
    simp only [Option.bind_eq_bind, Option.bind_some, if_neg (toString_ne_t n),
      String.ofList_toList, hread, Option.pure_def]
  | text t =>
    have hlist : (encodeEntryCursor (.text t) key).toList =
        ['t'] ++ ':' :: (hexEncode t.toUTF8.data.toList ++ ':' :: key.toList) := by
      rw [encodeEntryCursor, String.toList_append, String.toList_append, String.toList_append,
        String.toList_ofList]
      simp
    have ht : ∀ c ∈ ['t'], c ≠ ':' := by
      intro c hc
      rw [List.mem_singleton.mp hc]
      decide
    rw [decodeEntryCursor, hlist, splitColon_append ht]
    simp only [Option.bind_eq_bind, Option.bind_some, if_true,
      splitColon_append ne_colon_of_mem_hexEncode, hexDecode_hexEncode, fromUTF8?_toUTF8,
      Option.pure_def, String.ofList_toList]
