/-
The networks of `DOMARINN_TRUSTED_PROXIES`, and the bucket of a client.

An entry is an address, or an address and the length of a prefix.  An IPv4 address that is mapped
into IPv6 stands for the IPv4 address, in an entry as in a peer, and its prefix is counted from
there.

* **`mask_and_eq_iff`** — addresses are equal under a mask where they agree on its first bits;
* **`contains_maskedNet`** — a network holds the addresses that agree with it;
* **`bucket_eq_iff`** — the buckets of clients;
* **`trusted_cidr_iff`** — both, over every list of entries.
-/
import Domarinn.ClientIp
import Domarinn.Fallible
import Domarinn.Numerals
import Mathlib.Tactic.IntervalCases

/-! ### Masks -/

section
variable {w : ℕ}

/-- `checked_shl`. -/
def checkedShl (x : BitVec w) (n : ℕ) : Option (BitVec w) := if n < w then some (x <<< n) else none

/-- The mask of a prefix, which is empty where the shift would be by the full width. -/
def netMask (w bits : ℕ) : BitVec w := (checkedShl (BitVec.allOnes w) (w - bits)).getD 0

theorem getMsbD_netMask {bits : ℕ} (h : bits ≤ w) (i : ℕ) :
    (netMask w bits).getMsbD i = decide (i < bits) := by
  rw [netMask, checkedShl]
  split_ifs with hshift
  · rw [Option.getD_some, BitVec.getMsbD_shiftLeft, BitVec.getMsbD_allOnes, decide_eq_decide]
    omega
  · -- a prefix of no bits
    have hbits : ¬ i < bits := by omega
    rw [Option.getD_none, decide_eq_false hbits]
    exact BitVec.getMsbD_zero

/-- **Addresses are equal under a mask where they agree on its first bits.** -/
theorem mask_and_eq_iff {bits : ℕ} (h : bits ≤ w) (x y : BitVec w) :
    x &&& netMask w bits = y &&& netMask w bits ↔ ∀ i < bits, x.getMsbD i = y.getMsbD i := by
  have hbit : ∀ (z : BitVec w) i, (z &&& netMask w bits).getMsbD i =
      (z.getMsbD i && decide (i < bits)) := fun z i => by
    rw [BitVec.getMsbD_and, getMsbD_netMask h]
  constructor
  · intro heq i hi
    have hi' := congrArg (BitVec.getMsbD · i) heq
    simpa [hbit, hi] using hi'
  · intro hagree
    refine BitVec.eq_of_getMsbD_eq fun i _ => ?_
    rw [hbit, hbit]
    by_cases hi : i < bits
    · rw [hagree i hi]
    · rw [decide_eq_false hi, Bool.and_false, Bool.and_false]

end

/-! ### Entries -/

/-- `parse::<u32>`. -/
def parseU32 (s : List Char) : Option ℕ :=
  parseWith (readNumber 10 none true (2 ^ 32 - 1)) (if s.head? = some '+' then s.tail else s)

/-- `split_once('/')`. -/
def splitSlash (entry : List Char) : Option (List Char × List Char) :=
  match entry.dropWhile (· ≠ '/') with
  | [] => none
  | _ :: rest => some (entry.takeWhile (· ≠ '/'), rest)

/-- `ok_or`. -/
def orReason {α : Type} (reason : String) : Option α → Except String α
  | some value => .ok value
  | none => .error reason

/-- What an entry says: an address, and the length of a prefix if there is one. -/
def readEntry (entry : List Char) : Except String (IpAddr × Option ℕ) :=
  match splitSlash entry with
  | some (addr, bits) => do
    let addr ← orReason "not an IP address" (parseIpAddr addr)
    let bits ← orReason "not a prefix length" (parseU32 bits)
    return (addr, some bits)
  | none => do
    let addr ← orReason "not an IP address" (parseIpAddr entry)
    return (addr, none)

/-- `to_ipv4_mapped`. -/
def toIpv4Mapped (addr : BitVec 128) : Option (BitVec 32) :=
  if addr >>> 32 = 0xffff#128 then some (addr.setWidth 32) else none

/-- An entry that is mapped into IPv6 becomes the IPv4 entry it names. -/
def unmapEntry : IpAddr × Option ℕ → Except String (IpAddr × Option ℕ)
  | (.v6 addr, bits) =>
    match toIpv4Mapped addr, bits with
    | some v4, none => .ok (.v4 v4, none)
    | some v4, some p =>
      if 96 ≤ p ∧ p ≤ 128 then .ok (.v4 v4, some (p - 96))
      else if p < 96 then .error "an IPv4-mapped prefix must be /96 or longer"
      else .ok (.v6 addr, some p)
    | none, bits => .ok (.v6 addr, bits)
  | (.v4 addr, bits) => .ok (.v4 addr, bits)

/-- The network of an entry, masked. -/
def maskedNet : IpAddr × Option ℕ → Except String Net
  | (.v4 addr, bits) =>
    let bits := bits.getD 32
    if 32 < bits then .error "prefix longer than /32"
    else .ok (.v4 (addr &&& netMask 32 bits) (netMask 32 bits))
  | (.v6 addr, bits) =>
    let bits := bits.getD 128
    if 128 < bits then .error "prefix longer than /128"
    else .ok (.v6 (addr &&& netMask 128 bits) (netMask 128 bits))

/-- `parse_net`. -/
def parseNet (entry : List Char) : Except String Net := do
  maskedNet (← unmapEntry (← readEntry entry))

/-- The entries of a list: what stands between commas and is not blank. -/
def proxyEntries (raw : Option (List Char)) : List (List Char) :=
  raw.toList.flatMap fun value => Pieces.pieces isWhitespace ',' value

/-- `TrustedProxies::parse`. -/
def TrustedProxies.parse (raw : Option (List Char)) : Except String TrustedProxies :=
  (proxyEntries raw).mapM fun entry => (parseNet entry).mapError fun reason =>
    "invalid DOMARINN_TRUSTED_PROXIES entry '" ++ String.ofList entry ++ "' (" ++ reason ++
      "); expected an IP address or CIDR such as 10.0.0.0/8 or fd00::/8"

/-! ### What a network holds -/

/-- The bits of an address. -/
def IpAddr.width : IpAddr → ℕ
  | v4 _ => 32
  | v6 _ => 128

/-- Addresses of one family that agree on their first bits. -/
def PrefixAgree (bits : ℕ) : IpAddr → IpAddr → Prop
  | .v4 a, .v4 b => ∀ i < bits, a.getMsbD i = b.getMsbD i
  | .v6 a, .v6 b => ∀ i < bits, a.getMsbD i = b.getMsbD i
  | _, _ => False

/-- The bits of an address that are not of its canonical form. -/
def IpAddr.mappedBits (addr : IpAddr) : ℕ := addr.width - addr.toCanonical.width

/-- The length of the prefix of an entry in canonical form. -/
def canonicalBits (addr : IpAddr) : Option ℕ → ℕ
  | none => addr.toCanonical.width
  | some p => p - addr.mappedBits

/-- The prefix of an entry ends within the canonical address. -/
def Admissible (addr : IpAddr) (bits : Option ℕ) : Prop :=
  ∀ p ∈ bits, addr.mappedBits ≤ p ∧ p ≤ addr.width

section
variable {addr ip : IpAddr} {bits : Option ℕ} {net : Net} {entry : List Char}

theorem toCanonical_v6 (addr : BitVec 128) : (IpAddr.v6 addr).toCanonical =
    ((toIpv4Mapped addr).map IpAddr.v4).getD (.v6 addr) := by
  rw [IpAddr.toCanonical, toIpv4Mapped]
  split_ifs <;> rfl

/-- **A network holds the addresses that agree with it** on its prefix. -/
theorem contains_maskedNet (h : maskedNet (addr, bits) = .ok net) :
    net.contains ip = true ↔ PrefixAgree (bits.getD addr.width) ip addr := by
  cases addr with
  | v4 addr =>
    rw [maskedNet] at h
    split_ifs at h with hlong
    obtain rfl := Except.ok.inj h
    cases ip with
    | v4 ip => exact beq_iff_eq.trans (mask_and_eq_iff (Nat.le_of_not_lt hlong) ip addr)
    | v6 ip => exact iff_of_false Bool.false_ne_true id
  | v6 addr =>
    rw [maskedNet] at h
    split_ifs at h with hlong
    obtain rfl := Except.ok.inj h
    cases ip with
    | v4 ip => exact iff_of_false Bool.false_ne_true id
    | v6 ip => exact beq_iff_eq.trans (mask_and_eq_iff (Nat.le_of_not_lt hlong) ip addr)

theorem maskedNet_ok_iff : (∃ net, maskedNet (addr, bits) = .ok net) ↔
    bits.getD addr.width ≤ addr.width := by
  cases addr with
  | v4 addr =>
    rw [maskedNet, ← not_lt]
    split_ifs with hlong
    · exact iff_of_false (fun ⟨_, h⟩ => by cases h) (not_not_intro hlong)
    · exact iff_of_true ⟨_, rfl⟩ hlong
  | v6 addr =>
    rw [maskedNet, ← not_lt]
    split_ifs with hlong
    · exact iff_of_false (fun ⟨_, h⟩ => by cases h) (not_not_intro hlong)
    · exact iff_of_true ⟨_, rfl⟩ hlong

/-- An entry that is canonical stays as it is. -/
theorem canonicalBits_self (h : addr.toCanonical = addr) (bits : Option ℕ) :
    bits.getD addr.toCanonical.width = canonicalBits addr bits ∧
      (Admissible addr bits ↔ canonicalBits addr bits ≤ addr.toCanonical.width) := by
  have hmapped : addr.mappedBits = 0 := by rw [IpAddr.mappedBits, h, Nat.sub_self]
  cases bits with
  | none => exact ⟨rfl, iff_of_true (fun p hp => by cases hp) (Nat.le_refl _)⟩
  | some p =>
    refine ⟨by rw [canonicalBits, hmapped]; rfl, ?_⟩
    simp only [Admissible, canonicalBits, Option.mem_some_iff, forall_eq', hmapped, Nat.zero_le,
      true_and, Nat.sub_zero, h]

/-- What an entry becomes before it is masked, and when it is refused. -/
theorem unmapEntry_cases (addr : IpAddr) (bits : Option ℕ) :
    (∃ bits', unmapEntry (addr, bits) = .ok (addr.toCanonical, bits') ∧
      bits'.getD addr.toCanonical.width = canonicalBits addr bits ∧
      (Admissible addr bits ↔ canonicalBits addr bits ≤ addr.toCanonical.width)) ∨
    (¬ Admissible addr bits ∧ ∀ net, unmapEntry (addr, bits) >>= maskedNet ≠ .ok net) := by
  cases addr with
  | v4 addr => exact .inl ⟨bits, rfl, canonicalBits_self rfl bits⟩
  | v6 addr =>
    cases hmapped : toIpv4Mapped addr with
    | none =>
      have hself : (IpAddr.v6 addr).toCanonical = .v6 addr := by
        rw [toCanonical_v6, hmapped]
        rfl
      refine .inl ⟨bits, ?_, canonicalBits_self hself bits⟩
      simp only [unmapEntry, hmapped, hself]
    | some v4 =>
      have hv4 : (IpAddr.v6 addr).toCanonical = .v4 v4 := by
        rw [toCanonical_v6, hmapped]
        rfl
      have h96 : (IpAddr.v6 addr).mappedBits = 96 := by
        rw [IpAddr.mappedBits, hv4]
        rfl
      cases bits with
      | none =>
        refine .inl ⟨none, ?_, rfl, iff_of_true (fun p hp => by cases hp) (Nat.le_refl _)⟩
        simp only [unmapEntry, hmapped, hv4]
      | some p =>
        have hadmissible : Admissible (.v6 addr) (some p) ↔ 96 ≤ p ∧ p ≤ 128 := by
          simp only [Admissible, Option.mem_some_iff, forall_eq', h96, IpAddr.width]
        by_cases hrange : 96 ≤ p ∧ p ≤ 128
        · refine .inl ⟨some (p - 96), ?_, ?_, iff_of_true (hadmissible.mpr hrange) ?_⟩
          · simp only [unmapEntry, hmapped, hv4, if_pos hrange]
          · rw [canonicalBits, h96]
            rfl
          · rw [canonicalBits, h96, hv4, IpAddr.width]
            omega
        · refine .inr ⟨mt hadmissible.mp hrange, fun net hnet => ?_⟩
          by_cases hshort : p < 96
          · simp only [unmapEntry, hmapped, if_neg hrange, if_pos hshort] at hnet
            cases hnet
          · -- longer than an address is, and refused as such
            have hlong : 128 < p := by omega
            simp only [unmapEntry, hmapped, if_neg hrange, if_neg hshort] at hnet
            have hle := (@maskedNet_ok_iff (.v6 addr) (some p)).mp ⟨net, hnet⟩
            exact absurd hle (Nat.not_le.mpr hlong)

/-- An address is of the network that an entry names: in canonical form, both agree on the
prefix. -/
def EntryCovers (entry : List Char) (ip : IpAddr) : Prop :=
  ∃ addr bits, readEntry entry = .ok (addr, bits) ∧
    PrefixAgree (canonicalBits addr bits) ip.toCanonical addr.toCanonical

/-- What stands behind an entry that is accepted. -/
theorem parseNet_ok (h : parseNet entry = .ok net) : ∃ addr bits bits',
    readEntry entry = .ok (addr, bits) ∧ Admissible addr bits ∧
      maskedNet (addr.toCanonical, bits') = .ok net ∧
      bits'.getD addr.toCanonical.width = canonicalBits addr bits := by
  cases hread : readEntry entry with
  | error reason =>
    rw [parseNet, hread] at h
    cases h
  | ok read =>
    obtain ⟨addr, bits⟩ := read
    have hnet : unmapEntry (addr, bits) >>= maskedNet = .ok net := by
      rw [parseNet, hread] at h
      exact h
    obtain ⟨bits', hunmap, hbits, hadmissible⟩ | ⟨-, hrefused⟩ := unmapEntry_cases addr bits
    · rw [hunmap] at hnet
      have hle := maskedNet_ok_iff.mp ⟨net, hnet⟩
      rw [hbits] at hle
      exact ⟨addr, bits, bits', rfl, hadmissible.mpr hle, hnet, hbits⟩
    · exact absurd hnet (hrefused net)

/-- **Every prefix is accepted that ends within the canonical address**, and no other. -/
theorem parseNet_accepts_iff (entry : List Char) : (∃ net, parseNet entry = .ok net) ↔
    ∃ addr bits, readEntry entry = .ok (addr, bits) ∧ Admissible addr bits := by
  constructor
  · rintro ⟨net, h⟩
    obtain ⟨addr, bits, -, hread, hadmissible, -⟩ := parseNet_ok h
    exact ⟨addr, bits, hread, hadmissible⟩
  · rintro ⟨addr, bits, hread, hadmissible⟩
    obtain ⟨bits', hunmap, hbits, hle⟩ | ⟨hnot, -⟩ := unmapEntry_cases addr bits
    · have hfits : bits'.getD addr.toCanonical.width ≤ addr.toCanonical.width := by
        rw [hbits]
        exact hle.mp hadmissible
      obtain ⟨net, hnet⟩ := maskedNet_ok_iff.mpr hfits
      refine ⟨net, ?_⟩
      calc parseNet entry = unmapEntry (addr, bits) >>= maskedNet := by rw [parseNet, hread]; rfl
        _ = .ok net := by rw [hunmap]; exact hnet
    · exact absurd hadmissible hnot

/-- The network of an entry holds what the entry covers. -/
theorem contains_parseNet (h : parseNet entry = .ok net) (ip : IpAddr) :
    TrustedProxies.contains [net] ip = true ↔ EntryCovers entry ip := by
  obtain ⟨addr, bits, bits', hread, -, hnet, hbits⟩ := parseNet_ok h
  rw [TrustedProxies.contains, List.any_cons, List.any_nil, Bool.or_false,
    contains_maskedNet hnet, hbits]
  constructor
  · exact fun hagree => ⟨addr, bits, hread, hagree⟩
  · rintro ⟨addr', bits', hread', hagree⟩
    rw [hread] at hread'
    cases hread'
    exact hagree

/-- A list holds what one of its entries covers. -/
theorem contains_parse {raw : Option (List Char)} {trusted : TrustedProxies}
    (h : TrustedProxies.parse raw = .ok trusted) (ip : IpAddr) :
    TrustedProxies.contains trusted ip = true ↔
      ∃ entry ∈ proxyEntries raw, EntryCovers entry ip := by
  have hnet : ∀ net, net ∈ trusted ↔ ∃ entry ∈ proxyEntries raw, parseNet entry = .ok net := by
    intro net
    rw [mem_mapM_ok h]
    refine exists_congr fun entry => and_congr_right fun _ => ?_
    cases parseNet entry with
    | error reason => exact iff_of_false (fun h => by cases h) (fun h => by cases h)
    | ok net' => rfl
  have hany : TrustedProxies.contains trusted ip = true ↔
      ∃ net ∈ trusted, TrustedProxies.contains [net] ip = true := by
    simp only [TrustedProxies.contains, List.any_eq_true, List.any_cons, List.any_nil,
      Bool.or_false]
  rw [hany]
  constructor
  · rintro ⟨net, hmem, hcontains⟩
    obtain ⟨entry, hentry, hparse⟩ := (hnet net).mp hmem
    exact ⟨entry, hentry, (contains_parseNet hparse ip).mp hcontains⟩
  · rintro ⟨entry, hentry, hcovers⟩
    -- every entry of a list that was parsed is a network
    have hall := mapM_returns_iff.mp ⟨trusted, h⟩ entry hentry
    obtain ⟨net, hparse⟩ : ∃ net, parseNet entry = .ok net := by
      cases hparse : parseNet entry with
      | error reason =>
        rw [hparse] at hall
        obtain ⟨_, hall⟩ := hall
        cases hall
      | ok net => exact ⟨net, rfl⟩
    exact ⟨net, (hnet net).mpr ⟨entry, hentry, hparse⟩, (contains_parseNet hparse ip).mpr hcovers⟩

end

/-! ### The bucket of a client -/

/-- A part of an address, counted from the left. -/
def part {w : ℕ} (size : ℕ) (x : BitVec w) (k : ℕ) : BitVec size :=
  x.extractLsb' (w - (k + 1) * size) size

/-- An octet or a segment, as it is written to a base. -/
def partText {w : ℕ} (size base : ℕ) (x : BitVec w) (k : ℕ) : List Char :=
  Nat.toDigits base (part size x k).toNat

/-- `Ipv4Addr::to_string`. -/
def dotted (addr : BitVec 32) : List Char :=
  partText 8 10 addr 0 ++ '.' :: (partText 8 10 addr 1 ++ '.' ::
    (partText 8 10 addr 2 ++ '.' :: partText 8 10 addr 3))

/-- `ClientIp::bucket`. -/
def bucket (client : IpAddr) : List Char :=
  match client.toCanonical with
  | .v4 addr => dotted addr
  | .v6 addr =>
    partText 16 16 addr 0 ++ ':' :: (partText 16 16 addr 1 ++ ':' ::
      (partText 16 16 addr 2 ++ ':' :: (partText 16 16 addr 3 ++ "::/64".toList)))

/-- One IPv4 address, or one IPv6 network of 64 bits. -/
def SameClient : IpAddr → IpAddr → Prop
  | .v4 a, .v4 b => a = b
  | .v6 a, .v6 b => ∀ i < 64, a.getMsbD i = b.getMsbD i
  | _, _ => False

section
variable {w : ℕ}

/-- The bits of a part are those of the address. -/
theorem getMsbD_part {size k i : ℕ} (hk : (k + 1) * size ≤ w) (hi : i < size) (x : BitVec w) :
    (part size x k).getMsbD i = x.getMsbD (k * size + i) := by
  have hpart : (k + 1) * size = k * size + size := Nat.succ_mul k size
  have hstart : w - (w - (k + 1) * size + size - i) = k * size + i := by omega
  have hle : w - (k + 1) * size + size - i ≤ w := by omega
  rw [part, BitVec.getMsbD_extractLsb', hstart, decide_eq_true hi, decide_eq_true hle,
    Bool.true_and, Bool.true_and]

/-- Addresses have the same first parts where they agree on their bits. -/
theorem parts_eq_iff {size n : ℕ} (hsize : 0 < size) (h : n * size ≤ w) (x y : BitVec w) :
    (∀ k < n, part size x k = part size y k) ↔ ∀ i < n * size, x.getMsbD i = y.getMsbD i := by
  constructor
  · intro hparts i hi
    have hk : i / size < n := (Nat.div_lt_iff_lt_mul hsize).mpr hi
    have hle : (i / size + 1) * size ≤ w := (Nat.mul_le_mul_right size hk).trans h
    have hbit := congrArg (BitVec.getMsbD · (i % size)) (hparts _ hk)
    simp only [getMsbD_part hle (Nat.mod_lt i hsize), Nat.div_add_mod'] at hbit
    exact hbit
  · intro hbits k hk
    have hle : (k + 1) * size ≤ n * size := Nat.mul_le_mul_right size hk
    refine BitVec.eq_of_getMsbD_eq fun i hi => ?_
    rw [getMsbD_part (hle.trans h) hi, getMsbD_part (hle.trans h) hi]
    exact hbits _ (by rw [Nat.succ_mul] at hle; omega)

variable {size base k k' : ℕ} {x y : BitVec w}

/-- Four numerals with the same separator between them. -/
theorem partText_inj (hb : 1 < base) (hle : base ≤ 16) :
    partText size base x k = partText size base y k' ↔ part size x k = part size y k' := by
  rw [partText, partText, Numerals.toDigits_inj hb hle, BitVec.toNat_inj]

theorem partText_cons_inj (hb : 1 < base) (hle : base ≤ 16) {c : Char}
    (hc : ∀ d < base, Nat.digitChar d ≠ c) {r r' : List Char} :
    partText size base x k ++ c :: r = partText size base y k' ++ c :: r' ↔
      part size x k = part size y k' ∧ r = r' := by
  rw [partText, partText, Numerals.toDigits_cons_inj hb hle hc, BitVec.toNat_inj]

theorem forall_lt_four {P : ℕ → Prop} : (∀ k < 4, P k) ↔ P 0 ∧ P 1 ∧ P 2 ∧ P 3 := by
  constructor
  · exact fun h => ⟨h 0 (by decide), h 1 (by decide), h 2 (by decide), h 3 (by decide)⟩
  · rintro ⟨h0, h1, h2, h3⟩ k hk
    interval_cases k
    exacts [h0, h1, h2, h3]

end

theorem dotted_inj {a b : BitVec 32} : dotted a = dotted b ↔ a = b := by
  have hdot : ∀ d < 10, Nat.digitChar d ≠ '.' := by decide
  have hparts := @parts_eq_iff 32 8 4 (by decide) (by decide) a b
  rw [dotted, dotted, partText_cons_inj (by decide) (by decide) hdot,
    partText_cons_inj (by decide) (by decide) hdot, partText_cons_inj (by decide) (by decide) hdot,
    partText_inj (by decide) (by decide), ← @forall_lt_four fun k => part 8 a k = part 8 b k,
    hparts]
  exact ⟨fun h => BitVec.eq_of_getMsbD_eq h, fun h _ _ => by rw [h]⟩

/-- **Clients share a bucket where they are the same IPv4 address or of one IPv6 network.** -/
theorem bucket_eq_iff (a b : IpAddr) :
    bucket a = bucket b ↔ SameClient a.toCanonical b.toCanonical := by
  have hcolon : ∀ d < 16, Nat.digitChar d ≠ ':' := by decide
  -- a colon stands in every bucket of a network, and in none of an address
  have hmixed : ∀ (v4 : BitVec 32) (v6 : BitVec 128) rest,
      dotted v4 ≠ partText 16 16 v6 0 ++ ':' :: rest := by
    intro v4 v6 rest h
    have hmem : ':' ∈ dotted v4 := by
      rw [h]
      exact List.mem_append_right _ (.head _)
    have hdigits : ∀ k, ':' ∉ partText 8 10 v4 k := fun k hk =>
      absurd rfl (@Numerals.forall_mem_toDigits 10 (· ≠ ':') (by decide) (by decide) _ _ hk)
    simp [dotted, hdigits] at hmem
  rw [bucket, bucket]
  cases a.toCanonical with
  | v4 a =>
    cases b.toCanonical with
    | v4 b => exact dotted_inj
    | v6 b => exact iff_of_false (hmixed a b _) id
  | v6 a =>
    cases b.toCanonical with
    | v4 b => exact iff_of_false (fun h => hmixed b a _ h.symm) id
    | v6 b =>
      have hparts := @parts_eq_iff 128 16 4 (by decide) (by decide) a b
      have htail : "::/64".toList = ':' :: ":/64".toList := by decide
      simp only [htail, partText_cons_inj (show 1 < 16 by decide) (show 16 ≤ 16 by decide) hcolon,
        and_true]
      rw [← @forall_lt_four fun k => part 16 a k = part 16 b k, hparts]
      rfl

/-! ### Both laws -/

/-- **Trusted networks are prefixes**, for every list of entries, and the buckets are those of
clients. -/
theorem trusted_cidr_iff :
    (∀ entry net, parseNet entry = .ok net → ∀ ip,
      (TrustedProxies.contains [net] ip = true ↔ EntryCovers entry ip)) ∧
    (∀ raw trusted, TrustedProxies.parse raw = .ok trusted → ∀ ip,
      (TrustedProxies.contains trusted ip = true ↔
        ∃ entry ∈ proxyEntries raw, EntryCovers entry ip)) ∧
    (∀ entry, (∃ net, parseNet entry = .ok net) ↔
      ∃ addr bits, readEntry entry = .ok (addr, bits) ∧ Admissible addr bits) ∧
    ∀ a b, bucket a = bucket b ↔ SameClient a.toCanonical b.toCanonical :=
  ⟨fun _ _ h => contains_parseNet h, fun _ _ h => contains_parse h, parseNet_accepts_iff,
    bucket_eq_iff⟩

/-- A list of two entries, one of them mapped into IPv6. -/
def mappedList : List Char := "::ffff:10.1.0.0/104, fd00::/0".toList

theorem mapped_entry_covers :
    (TrustedProxies.contains [.v4 0x0a000000#32 0xff000000#32] (.v4 0x0aff0001#32) = true ↔
      EntryCovers "::ffff:10.1.0.0/104".toList (.v4 0x0aff0001#32)) ∧
    (TrustedProxies.contains [.v4 0x0a000000#32 0xff000000#32, .v6 0 0] (.v6 1#128) = true ↔
      ∃ entry ∈ proxyEntries (some mappedList), EntryCovers entry (.v6 1#128)) :=
  ⟨trusted_cidr_iff.1 _ _ (by decide +kernel) _,
    trusted_cidr_iff.2.1 (some mappedList) _ (by decide +kernel) _⟩
