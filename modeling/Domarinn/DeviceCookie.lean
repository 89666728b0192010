/-
Device cookies: signed notes that a browser has signed in as a user before.

A cookie is `v1.<user>.<nonce>.<mac>`.  All the `Cookie` headers of a request are searched for one
of the user; a header that cannot be read as text is passed over, with whatever it holds.

* **`decodeDevice_encode`** — a cookie is read back;
* **`decodeDevice_eq_some`** — and nothing else is read but a cookie that the key signed, its code
  perhaps written in capitals;
* **`recognised_iff`** — so a browser is recognised by its cookie, unless that stands in a header
  that cannot be read.

The MAC is any function of the key and the text.
-/
import Domarinn.Cursors
import Domarinn.HeaderText
import Domarinn.Pieces
import Domarinn.Types

/-! ### The parts of a text -/

/-- Four parts, and the text that they make up. -/
theorem splitOn_eq_four {sep : Char} {text a b c d : List Char} :
    text.splitOn sep = [a, b, c, d] ↔ text = a ++ sep :: (b ++ sep :: (c ++ sep :: d)) ∧
      sep ∉ a ∧ sep ∉ b ∧ sep ∉ c ∧ sep ∉ d := by
  constructor
  · intro h
    have hparts : ∀ part ∈ [a, b, c, d], sep ∉ part := fun part hpart =>
      Pieces.not_mem_part (h ▸ hpart)
    have htext := @List.intercalate_splitOn _ text _ _ sep
    rw [h] at htext
    simp only [List.forall_mem_cons] at hparts
    exact ⟨by rw [← htext]; simp [List.intercalate], hparts.1, hparts.2.1, hparts.2.2.1,
      hparts.2.2.2.1⟩
  · rintro ⟨rfl, ha, hb, hc, hd⟩
    rw [List.splitOn_append_cons_self_of_not_mem ha, List.splitOn_append_cons_self_of_not_mem hb,
      List.splitOn_append_cons_self_of_not_mem hc, List.splitOn_eq_singleton hd]

/-! ### Hexadecimal text -/

/-- What is read as hexadecimal holds digits only. -/
theorem isSome_hexVal_of_hexDecode : ∀ {text : List Char} {bytes : List UInt8},
    hexDecode text = some bytes → ∀ c ∈ text, (hexVal c).isSome = true
  | [], _, _ => fun c hc => absurd hc List.not_mem_nil
  | [_], _, h => by cases h
  | a :: b :: rest, bytes, h => by
    rw [hexDecode] at h
    obtain ⟨hi, hhi, h⟩ := Option.bind_eq_some_iff.mp h
    obtain ⟨lo, hlo, h⟩ := Option.bind_eq_some_iff.mp h
    obtain ⟨bytes, hbytes, -⟩ := Option.bind_eq_some_iff.mp h
    rw [List.forall_mem_cons, List.forall_mem_cons, hhi, hlo]
    exact ⟨rfl, rfl, isSome_hexVal_of_hexDecode hbytes⟩

theorem dot_not_mem_of_hexDecode {text : List Char} {bytes : List UInt8}
    (h : hexDecode text = some bytes) : '.' ∉ text := fun hdot =>
  absurd (isSome_hexVal_of_hexDecode h '.' hdot) (by decide)

theorem dot_not_mem_of_hexdigits {text : List Char}
    (h : text.all (fun c => (hexVal c).isSome) = true) : '.' ∉ text := fun hdot =>
  absurd (List.all_eq_true.mp h '.' hdot) (by decide)

/-! ### Cookies -/

/-- `DEVICE_COOKIE`. -/
def deviceCookie : List Char := "domarinn_device".toList

/-- A decoded device cookie. -/
structure DeviceCookie where
  userId : List Char
  nonce : List Char
deriving DecidableEq

/-- `is_ascii_hexdigit`. -/
def isHexdigit (c : Char) : Bool := (hexVal c).isSome

/-- A cookie as the server makes them: of a user that has an id, which holds no dot, with a nonce
of sixteen bytes in hexadecimal. -/
structure DeviceCookie.Proper (c : DeviceCookie) : Prop where
  userId_ne : c.userId ≠ []
  userId_single : '.' ∉ c.userId
  nonce_length : c.nonce.length = 32
  nonce_hex : c.nonce.all isHexdigit = true

/-- What is signed. -/
def DeviceCookie.payload (c : DeviceCookie) : List Char :=
  "v1".toList ++ '.' :: (c.userId ++ '.' :: c.nonce)

section
variable {κ : Type} (mac : κ → List Char → List UInt8)

/-- `encode`. -/
def encodeDevice (key : κ) (c : DeviceCookie) : List Char :=
  c.payload ++ '.' :: hexEncode (mac key c.payload)

/-- `decode`. -/
def decodeDevice (key : κ) (value : List Char) : Option DeviceCookie :=
  match value.splitOn '.' with
  | [version, userId, nonce, tag] =>
    if version ≠ "v1".toList ∨ userId.isEmpty ∨ nonce.length ≠ 32 ∨ ¬ nonce.all isHexdigit then none
    else do
      let tag ← hexDecode tag
      if tag = mac key (DeviceCookie.payload ⟨userId, nonce⟩) then some ⟨userId, nonce⟩ else none
  | _ => none

/-- The cookies of a header: a name and a value, without the blanks around them, for each part
that has a name. -/
def cookiePairs (text : List Char) : List (List Char × List Char) :=
  (text.splitOn ';').filterMap fun part =>
    match part.span (· ≠ '=') with
    | (name, _ :: value) =>
      let name := Pieces.trim isWhitespace name
      if name.isEmpty then none else some (name, Pieces.trim isWhitespace value)
    | _ => none

/-- `Cookie::split_parse` of the `cookie` crate, and the cookies that it could read: those of the
header. -/
structure CookieReader where
  splitParse : List Char → List (List Char × List Char)
  mem_splitParse : ∀ value : List UInt8, (∀ b ∈ value, isVisible b = true) → ∀ pair,
    pair ∈ splitParse (value.map byteChar) ↔ pair ∈ cookiePairs (value.map byteChar)

/-- A reader that gives the cookies in the order of the header. -/
def CookieReader.inOrder : CookieReader := ⟨cookiePairs, fun _ _ _ => Iff.rfl⟩

/-- `recognised`. -/
def recognised (reader : HeaderReader) (cookies : CookieReader) (headers : RequestHeaders) (key : κ)
    (userId : Option (List Char)) : Option DeviceCookie :=
  userId.bind fun userId => (headers.getAll "cookie").findSome? fun value =>
    (reader.toStr value).bind fun raw => (cookies.splitParse raw).findSome? fun parsed =>
      if parsed.1 ≠ deviceCookie then none
      else (decodeDevice mac key parsed.2).filter fun device => device.userId = userId

variable {mac} {key : κ} {value : List Char} {c : DeviceCookie}

/-- A value that the key signed as a cookie: the code that follows the cookie is its MAC, in
capitals or not. -/
def SignedAs (mac : κ → List Char → List UInt8) (key : κ) (c : DeviceCookie) (value : List Char) :
    Prop :=
  ∃ tag, value = c.payload ++ '.' :: tag ∧ hexDecode tag = some (mac key c.payload)

theorem signedAs_encode : SignedAs mac key c (encodeDevice mac key c) :=
  ⟨_, rfl, hexDecode_hexEncode _⟩

/-- **A cookie is read** from the values that the key signed as it, and from no other. -/
theorem decodeDevice_eq_some :
    decodeDevice mac key value = some c ↔ c.Proper ∧ SignedAs mac key c value := by
  constructor
  · intro h
    rw [decodeDevice] at h
    split at h
    · next version userId nonce tag hparts =>
      split_ifs at h with hbad
      simp only [not_or, not_not] at hbad
      obtain ⟨hversion, huserId, hlength, hhex⟩ := hbad
      obtain ⟨bytes, hdecoded, h⟩ := Option.bind_eq_some_iff.mp h
      split_ifs at h with hmac
      obtain rfl := Option.some.inj h
      obtain ⟨hvalue, -, hsingle, -, -⟩ := splitOn_eq_four.mp hparts
      refine ⟨⟨by simpa using huserId, hsingle, hlength, hhex⟩, tag, ?_, hmac ▸ hdecoded⟩
      rw [hvalue, hversion]
      simp [DeviceCookie.payload]
    · cases h
  · rintro ⟨hproper, tag, rfl, hdecoded⟩
    have hparts : (c.payload ++ '.' :: tag).splitOn '.' =
        ["v1".toList, c.userId, c.nonce, tag] := by
      refine splitOn_eq_four.mpr ⟨by simp [DeviceCookie.payload], by decide, hproper.userId_single,
        dot_not_mem_of_hexdigits hproper.nonce_hex, dot_not_mem_of_hexDecode hdecoded⟩
    have hgood : ¬ ("v1".toList ≠ "v1".toList ∨ c.userId.isEmpty ∨ c.nonce.length ≠ 32 ∨
        ¬ c.nonce.all isHexdigit) := by
      simp only [not_or, not_not]
      exact ⟨trivial, by simpa using hproper.userId_ne, hproper.nonce_length, hproper.nonce_hex⟩
    rw [decodeDevice, hparts]
    simp only [if_neg hgood, hdecoded, Option.bind_eq_bind, Option.bind_some, if_true]

/-- **A cookie is read back.** -/
theorem decodeDevice_encode (hproper : c.Proper) :
    decodeDevice mac key (encodeDevice mac key c) = some c :=
  decodeDevice_eq_some.mpr ⟨hproper, signedAs_encode⟩

/-! ### Recognising a browser -/

/-- A header holds a cookie of the user, as the key encodes it. -/
def HoldsCookie (mac : κ → List Char → List UInt8) (key : κ) (userId : List Char)
    (header : List UInt8) : Prop :=
  ∃ c : DeviceCookie, c.Proper ∧ c.userId = userId ∧
    (deviceCookie, encodeDevice mac key c) ∈ cookiePairs (header.map byteChar)

/-- A header holds a cookie of the user that the key signed, in capitals or not. -/
def HoldsSigned (mac : κ → List Char → List UInt8) (key : κ) (userId : List Char)
    (header : List UInt8) : Prop :=
  ∃ (c : DeviceCookie) (value : List Char), c.Proper ∧ c.userId = userId ∧
    SignedAs mac key c value ∧ (deviceCookie, value) ∈ cookiePairs (header.map byteChar)

/-- A header holds a cookie of the user that the key signed, but does not encode so: hexadecimal is
written in small letters. -/
def HoldsRespelled (mac : κ → List Char → List UInt8) (key : κ) (userId : List Char)
    (header : List UInt8) : Prop :=
  ∃ (c : DeviceCookie) (value : List Char), c.Proper ∧ c.userId = userId ∧
    SignedAs mac key c value ∧ value ≠ encodeDevice mac key c ∧
      (deviceCookie, value) ∈ cookiePairs (header.map byteChar)

/-- A header that can be read as text. -/
def IsText (header : List UInt8) : Prop := ∀ b ∈ header, isVisible b = true

variable {reader : HeaderReader} {cookies : CookieReader} {headers : RequestHeaders}
  {userId : List Char}

/-- What is found in one header that can be read. -/
theorem isSome_findSome_parsed {header : List UInt8} (htext : IsText header) :
    ((cookies.splitParse (header.map byteChar)).findSome? fun parsed =>
      if parsed.1 ≠ deviceCookie then none
      else (decodeDevice mac key parsed.2).filter fun device => device.userId = userId).isSome ↔
        HoldsSigned mac key userId header := by
  rw [List.findSome?_isSome_iff]
  constructor
  · rintro ⟨⟨name, value⟩, hparsed, hfound⟩
    split_ifs at hfound with hname
    · cases hfound
    · obtain ⟨c, hc⟩ := Option.isSome_iff_exists.mp hfound
      obtain ⟨hdecoded, huser⟩ := Option.filter_eq_some_iff.mp hc
      obtain ⟨hproper, hsigned⟩ := decodeDevice_eq_some.mp hdecoded
      refine ⟨c, value, hproper, of_decide_eq_true huser, hsigned, ?_⟩
      rw [← cookies.mem_splitParse header htext, ← not_not.mp hname]
      exact hparsed
  · rintro ⟨c, value, hproper, huser, hsigned, hpair⟩
    refine ⟨_, (cookies.mem_splitParse header htext _).mpr hpair, ?_⟩
    rw [if_neg (not_not.mpr rfl), decodeDevice_eq_some.mpr ⟨hproper, hsigned⟩, Option.filter_some,
      if_pos (decide_eq_true huser)]
    rfl

/-- A browser is recognised by a signed cookie in a header that can be read. -/
theorem isSome_recognised :
    (recognised mac reader cookies headers key (some userId)).isSome ↔
      ∃ header ∈ headers.getAll "cookie", IsText header ∧ HoldsSigned mac key userId header := by
  rw [recognised, Option.bind_some, List.findSome?_isSome_iff]
  refine exists_congr fun header => and_congr_right fun _ => ?_
  cases hread : reader.toStr header with
  | none =>
    have hnot : ¬ IsText header := fun htext => by
      have hsome := (reader.toStr_isSome header).mpr htext
      rw [hread] at hsome
      cases hsome
    exact iff_of_false Bool.false_ne_true fun h => hnot h.1
  | some raw =>
    have htext : IsText header := (reader.toStr_isSome header).mp (by rw [hread]; rfl)
    rw [Option.bind_some, reader.toStr_text header raw hread, isSome_findSome_parsed htext]
    exact (and_iff_right htext).symm

theorem holdsSigned_iff {header : List UInt8} : HoldsSigned mac key userId header ↔
    HoldsCookie mac key userId header ∨ HoldsRespelled mac key userId header := by
  constructor
  · rintro ⟨c, value, hproper, huser, hsigned, hpair⟩
    by_cases hvalue : value = encodeDevice mac key c
    · exact .inl ⟨c, hproper, huser, hvalue ▸ hpair⟩
    · exact .inr ⟨c, value, hproper, huser, hsigned, hvalue, hpair⟩
  · rintro (⟨c, hproper, huser, hpair⟩ | ⟨c, value, hproper, huser, hsigned, -, hpair⟩)
    · exact ⟨c, _, hproper, huser, signedAs_encode, hpair⟩
    · exact ⟨c, value, hproper, huser, hsigned, hpair⟩

theorem or_iff_or_iff {p q r : Prop} : ((p ∨ r ↔ p ∨ q) ↔ p ∨ (q ↔ r)) := by
  by_cases hp : p
  · simp [hp]
  · simp [hp, iff_comm]

/-- **A browser is recognised by its cookie** where that stands in a header that can be read.
Otherwise it is not, though another header may hold the cookie, unless by one in capitals. -/
theorem recognised_iff (mac : κ → List Char → List UInt8) (reader : HeaderReader)
    (cookies : CookieReader) (headers : RequestHeaders) (key : κ) (userId : List Char) :
    (((recognised mac reader cookies headers key (some userId)).isSome = true ↔
        ∃ header ∈ headers.getAll "cookie", HoldsCookie mac key userId header) ↔
      (∃ header ∈ headers.getAll "cookie", IsText header ∧ HoldsCookie mac key userId header) ∨
      ((∃ header ∈ headers.getAll "cookie", ¬ IsText header ∧ HoldsCookie mac key userId header) ↔
        ∃ header ∈ headers.getAll "cookie", IsText header ∧ HoldsRespelled mac key userId header)) ∧
    ∀ c : DeviceCookie, c.Proper → decodeDevice mac key (encodeDevice mac key c) = some c := by
  refine ⟨?_, fun _ => decodeDevice_encode⟩
  have hrecognised : (recognised mac reader cookies headers key (some userId)).isSome = true ↔
      (∃ header ∈ headers.getAll "cookie", IsText header ∧ HoldsCookie mac key userId header) ∨
        ∃ header ∈ headers.getAll "cookie",
          IsText header ∧ HoldsRespelled mac key userId header := by
    rw [isSome_recognised, ← exists_or]
    refine exists_congr fun header => ?_
    rw [holdsSigned_iff, and_or_left, and_or_left]
  have hholds : (∃ header ∈ headers.getAll "cookie", HoldsCookie mac key userId header) ↔
      (∃ header ∈ headers.getAll "cookie", IsText header ∧ HoldsCookie mac key userId header) ∨
        ∃ header ∈ headers.getAll "cookie", ¬ IsText header ∧
          HoldsCookie mac key userId header := by
    rw [← exists_or]
    refine exists_congr fun header => ?_
    rw [← and_or_left, ← or_and_right, and_iff_right (em (IsText header))]
  rw [hrecognised, hholds]
  exact or_iff_or_iff

end

/-! ### A cookie that is not seen -/

/-- The key, and then the text. -/
def openMac (key : List UInt8) (payload : List Char) : List UInt8 :=
  key ++ payload.map fun c => UInt8.ofNat c.toNat

def knownBrowser : DeviceCookie := ⟨"u".toList, List.replicate 32 '0'⟩

/-- Another cookie of the browser holds a byte of Latin-1. -/
def latinHeader : List UInt8 :=
  [0x78, 0x3d, 0xe9, 0x3b] ++ (deviceCookie ++ '=' ::
    encodeDevice openMac [7] knownBrowser).map fun c => UInt8.ofNat c.toNat

/-- The browser sends its cookie, and is not recognised. -/
theorem beside_latin_lost :
    HoldsCookie openMac [7] "u".toList latinHeader ∧
      recognised openMac .documented .inOrder [("cookie", latinHeader)] [7] (some "u".toList) =
        none := by
  have hproper : knownBrowser.Proper := ⟨by decide, by decide, by decide, by decide⟩
  refine ⟨⟨knownBrowser, hproper, rfl, ?_⟩, ?_⟩
  · decide +kernel
  · decide +kernel
