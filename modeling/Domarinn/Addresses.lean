/-
Network addresses as they are written: IPv4, IPv6, and either with a port.

The readers take what they can from the front of a text and give back the rest, like those of
the standard library: an octet has no leading zero, `::` stands for the groups that are missing,
and the last two groups can be written as an IPv4 address.

* **`parseIpAddr`**, **`parseSocketAddr`** — the whole text is one address;
* **`IpAddr.toCanonical_toCanonical`** — an address has one canonical form.
-/
import Domarinn.Types
import Mathlib.Data.List.Basic

inductive IpAddr where
  | v4 (addr : BitVec 32)
  | v6 (addr : BitVec 128)
deriving DecidableEq

/-- `to_canonical`: an IPv4 address that is mapped into IPv6 is the address it carries. -/
def IpAddr.toCanonical : IpAddr → IpAddr
  | v4 addr => v4 addr
  | v6 addr => if addr >>> 32 = 0xffff#128 then v4 (addr.setWidth 32) else v6 addr

@[simp] theorem IpAddr.toCanonical_toCanonical (ip : IpAddr) :
    ip.toCanonical.toCanonical = ip.toCanonical := by
  cases ip with
  | v4 addr => rfl
  | v6 addr =>
    rw [toCanonical]
    split_ifs with hmapped
    · rfl
    · rw [toCanonical, if_neg hmapped]

/-! ### Readers -/

/-- A reader takes a value from the front of a text. -/
abbrev Reader (α : Type) := List Char → Option (α × List Char)

/-- `read_given_char`. -/
def readGivenChar (c : Char) : List Char → Option (List Char)
  | [] => none
  | x :: rest => if x = c then some rest else none

/-- `char::to_digit`. -/
def toDigit (radix : ℕ) (c : Char) : Option ℕ :=
  let n := c.toNat
  let value :=
    if 48 ≤ n ∧ n ≤ 57 then some (n - 48)
    else if 97 ≤ n ∧ n ≤ 122 then some (n - 87)
    else if 65 ≤ n ∧ n ≤ 90 then some (n - 55)
    else none
  value.filter (· < radix)

/-- The digits at the front of a text. -/
def frontDigits (radix : ℕ) : List Char → List ℕ
  | [] => []
  | c :: rest =>
    match toDigit radix c with
    | some d => d :: frontDigits radix rest
    | none => []

/-- `read_number`, of a type with this largest value. -/
def readNumber (radix : ℕ) (maxDigits : Option ℕ) (allowZeroPrefix : Bool) (largest : ℕ) :
    Reader ℕ := fun s =>
  let digits := frontDigits radix s
  let n := digits.foldl (fun n d => n * radix + d) 0
  if digits = [] ∨ (∃ m ∈ maxDigits, m < digits.length) then none
  else if !allowZeroPrefix ∧ s.head? = some '0' ∧ 1 < digits.length then none
  else if largest < n then none
  else some (n, s.drop digits.length)

/-- `read_separator`: the separator stands before every value but the first. -/
def readSeparator {α : Type} (sep : Char) (index : ℕ) (inner : Reader α) : Reader α := fun s =>
  if 0 < index then (readGivenChar sep s).bind inner else inner s

/-- One part of an IPv4 address. -/
def readOctet (index : ℕ) : Reader ℕ := readSeparator '.' index (readNumber 10 (some 3) false 255)

/-- `read_ipv4_addr`. -/
def readIpv4Addr : Reader (BitVec 32) := fun s => do
  let (a, s) ← readOctet 0 s
  let (b, s) ← readOctet 1 s
  let (c, s) ← readOctet 2 s
  let (d, s) ← readOctet 3 s
  return (BitVec.ofNat 32 (((a * 256 + b) * 256 + c) * 256 + d), s)

/-- `read_groups`: up to so many groups more, and whether an IPv4 address ended them. -/
def readGroups : ℕ → List ℕ → List Char → List ℕ × Bool × List Char
  | 0, groups, s => (groups, false, s)
  | more + 1, groups, s =>
    -- an embedded IPv4 address takes two groups
    match if 0 < more then readSeparator ':' groups.length readIpv4Addr s else none with
    | some (v4, rest) => (groups ++ [v4.toNat / 65536, v4.toNat % 65536], true, rest)
    | none =>
      match readSeparator ':' groups.length (readNumber 16 (some 4) true 65535) s with
      | some (group, rest) => readGroups more (groups ++ [group]) rest
      | none => (groups, false, s)

/-- The address of eight groups. -/
def ofGroups (groups : List ℕ) : BitVec 128 :=
  BitVec.ofNat 128 (groups.foldl (fun n group => n * 65536 + group) 0)

/-- `read_ipv6_addr`. -/
def readIpv6Addr : Reader (BitVec 128) := fun s =>
  let (head, headIpv4, rest) := readGroups 8 [] s
  if head.length = 8 then some (ofGroups head, rest)
  else if headIpv4 then none
  else do
    let rest ← readGivenChar ':' rest
    let rest ← readGivenChar ':' rest
    let (tail, _, rest) := readGroups (8 - (head.length + 1)) [] rest
    return (ofGroups (head ++ List.replicate (8 - head.length - tail.length) 0 ++ tail), rest)

/-- `read_ip_addr`. -/
def readIpAddr : Reader IpAddr := fun s =>
  ((readIpv4Addr s).map fun (addr, rest) => (.v4 addr, rest)) <|>
    (readIpv6Addr s).map fun (addr, rest) => (.v6 addr, rest)

/-- `read_port`. -/
def readPort : Reader ℕ := fun s => (readGivenChar ':' s).bind (readNumber 10 none true 65535)

/-- `read_scope_id`, or nothing where there is none. -/
def skipScopeId (s : List Char) : List Char :=
  (((readGivenChar '%' s).bind (readNumber 10 none true (2 ^ 32 - 1))).map Prod.snd).getD s

/-- `read_socket_addr`, of which the address is kept. -/
def readSocketAddr : Reader IpAddr := fun s =>
  (do let (addr, s) ← readIpv4Addr s
      let (_, s) ← readPort s
      return (.v4 addr, s)) <|>
  (do let s ← readGivenChar '[' s
      let (addr, s) ← readIpv6Addr s
      let s ← readGivenChar ']' (skipScopeId s)
      let (_, s) ← readPort s
      return (.v6 addr, s))

/-- `parse_with`: nothing may be left. -/
def parseWith {α : Type} (read : Reader α) (s : List Char) : Option α :=
  (read s).bind fun (value, rest) => if rest.isEmpty then some value else none

/-- `str::parse::<IpAddr>`. -/
def parseIpAddr : List Char → Option IpAddr := parseWith readIpAddr

/-- `str::parse::<SocketAddr>`, and its address. -/
def parseSocketAddr : List Char → Option IpAddr := parseWith readSocketAddr

example : parseIpAddr "2001:db8::198.51.100.7".toList =
    some (.v6 0x20010db80000000000000000c6336407#128) := by decide

example : parseSocketAddr "[2001:db8::5%1]:443".toList =
    some (.v6 0x20010db8000000000000000000000005#128) := by decide

/-- An octet has no leading zero. -/
example : parseIpAddr "198.051.100.7".toList = none := by decide
