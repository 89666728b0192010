/-
The client of a request, resolved through the trusted proxies.

A peer that is not trusted is the client.  Behind a trusted peer, the hops of `X-Forwarded-For`
are walked from the right, the end that the nearest proxy appended, and the first hop that is
not trusted is the client.  What stands left of that hop, the client may have written itself.

Every line of the header is read before the walk begins, and where one cannot be read as text the
peer is taken for the client.

* **`client_address_iff`** — the client cannot choose its address, as long as it sends text;
* **`unreadable_prefix_hides`** — one byte that is not text makes it the address of the proxy.
-/
import Domarinn.Addresses
import Domarinn.HeaderText
import Domarinn.Pieces

/-! ### Trusted proxies -/

/-- One trusted network, masked. -/
inductive Net where
  | v4 (addr mask : BitVec 32)
  | v6 (addr mask : BitVec 128)
deriving DecidableEq

/-- `Net::contains`. -/
def Net.contains : Net → IpAddr → Bool
  | v4 addr mask, .v4 ip => ip &&& mask == addr
  | v6 addr mask, .v6 ip => ip &&& mask == addr
  | _, _ => false

/-- `TrustedProxies`. -/
abbrev TrustedProxies := List Net

/-- `TrustedProxies::contains`. -/
def TrustedProxies.contains (trusted : TrustedProxies) (ip : IpAddr) : Bool :=
  trusted.any fun net => net.contains ip.toCanonical

@[simp] theorem contains_toCanonical (trusted : TrustedProxies) (ip : IpAddr) :
    TrustedProxies.contains trusted ip.toCanonical = TrustedProxies.contains trusted ip := by
  rw [TrustedProxies.contains, TrustedProxies.contains, IpAddr.toCanonical_toCanonical]

/-! ### Resolving the client -/

/-- `parse_hop`: an address, or an address with a port. -/
def parseHop (hop : List Char) : Option IpAddr := parseIpAddr hop <|> parseSocketAddr hop

/-- The walk, over the hops from the right. -/
def walkHops (trusted : TrustedProxies) (peer : IpAddr) : List (List Char) → IpAddr
  | [] => peer
  | hop :: hops =>
    match parseHop (Pieces.trim isWhitespace hop) with
    | none => peer
    | some ip =>
      if TrustedProxies.contains trusted ip.toCanonical then walkHops trusted peer hops
      else ip.toCanonical

/-- `resolve`. -/
def resolve (reader : HeaderReader) (peer : IpAddr) (headers : RequestHeaders)
    (trusted : TrustedProxies) : IpAddr :=
  let peer := peer.toCanonical
  if !TrustedProxies.contains trusted peer then peer
  else match (headers.getAll "x-forwarded-for").mapM reader.toStr with
    | none => peer
    | some values =>
      if values.isEmpty then peer
      else walkHops trusted peer ((([','].intercalate values).splitOn ',').reverse)

/-! ### The hops that proxies append -/

/-- What a proxy writes: one element of the list, as text. -/
structure Hop where
  bytes : List UInt8
  visible : ∀ b ∈ bytes, isVisible b = true
  single : ',' ∉ bytes.map byteChar

/-- The address that a hop names. -/
def Hop.address (hop : Hop) : Option IpAddr :=
  parseHop (Pieces.trim isWhitespace (hop.bytes.map byteChar))

/-- The lines of the header once proxies have appended hops to those of the client: each hop is a
line of its own, or goes to the end of the last line. -/
inductive Appended (client : List (List UInt8)) : List Hop → List (List UInt8) → Prop where
  | client : Appended client [] client
  | newLine {hops : List Hop} {lines : List (List UInt8)} (hop : Hop)
      (h : Appended client hops lines) : Appended client (hops ++ [hop]) (lines ++ [hop.bytes])
  | sameLine {hops : List Hop} {lines : List (List UInt8)} {last : List UInt8} (hop : Hop)
      (h : Appended client hops (lines ++ [last])) :
      Appended client (hops ++ [hop]) (lines ++ [last ++ 44 :: hop.bytes])

/-- What the client wrote can be read. -/
def Legible (client : List (List UInt8)) : Prop :=
  ∀ line ∈ client, ∀ b ∈ line, isVisible b = true

/-- The trusted chain appended a hop that is not trusted, naming this address, and then only hops
that are trusted. -/
def Forwarded (trusted : TrustedProxies) (client lines : List (List UInt8)) (ip : IpAddr) : Prop :=
  ∃ c ts, Appended client (c :: ts) lines ∧ c.address = some ip ∧
    TrustedProxies.contains trusted ip = false ∧
      ∀ t ∈ ts, ∃ ip', t.address = some ip' ∧ TrustedProxies.contains trusted ip' = true

/-! ### The list that is walked -/

section
variable {client lines : List (List UInt8)} {hops : List Hop}

/-- The elements of some lines, as they are read. -/
def hopTexts (lines : List (List UInt8)) : List (List Char) :=
  lines.flatMap fun line => (line.map byteChar).splitOn ','

theorem hopTexts_append (lines lines' : List (List UInt8)) :
    hopTexts (lines ++ lines') = hopTexts lines ++ hopTexts lines' := List.flatMap_append

theorem hopTexts_hop (hop : Hop) : hopTexts [hop.bytes] = [hop.bytes.map byteChar] := by
  rw [hopTexts, List.flatMap_singleton, List.splitOn_eq_singleton hop.single]

/-- The hops are the last elements, whatever stands before them. -/
theorem hopTexts_appended (h : Appended client hops lines) :
    hopTexts lines = hopTexts client ++ hops.map fun hop => hop.bytes.map byteChar := by
  induction h with
  | client => rw [List.map_nil, List.append_nil]
  | newLine hop h ih =>
    rw [hopTexts_append, ih, hopTexts_hop, List.map_append, List.append_assoc]
    rfl
  | @sameLine hops lines last hop h ih =>
    have hlast : hopTexts [last ++ 44 :: hop.bytes] =
        hopTexts [last] ++ [hop.bytes.map byteChar] := by
      rw [← hopTexts_hop, hopTexts, hopTexts, hopTexts, List.flatMap_singleton,
        List.flatMap_singleton, List.flatMap_singleton, List.map_append, List.map_cons]
      exact List.splitOn_append_cons_self _ _
    rw [hopTexts_append, hlast, ← List.append_assoc, ← hopTexts_append, ih, List.map_append,
      List.append_assoc]
    rfl

/-- The lines can be read where what the client wrote can be. -/
theorem legible_appended (h : Appended client hops lines) : Legible lines ↔ Legible client := by
  induction h with
  | client => rfl
  | newLine hop h ih =>
    rw [← ih, Legible, List.forall_mem_append, List.forall_mem_singleton]
    exact and_iff_left hop.visible
  | @sameLine hops lines last hop h ih =>
    rw [← ih, Legible, Legible, List.forall_mem_append, List.forall_mem_append,
      List.forall_mem_singleton, List.forall_mem_singleton, List.forall_mem_append,
      List.forall_mem_cons]
    refine and_congr_right fun _ => and_iff_left ⟨by decide, hop.visible⟩

variable {reader : HeaderReader}

theorem mapM_toStr_of_legible (h : Legible lines) :
    lines.mapM reader.toStr = some (lines.map fun line => line.map byteChar) := by
  induction lines with
  | nil => rfl
  | cons line lines ih =>
    obtain ⟨hline, hlines⟩ := List.forall_mem_cons.mp h
    obtain ⟨text, htext⟩ := Option.isSome_iff_exists.mp ((reader.toStr_isSome line).mpr hline)
    rw [List.mapM_cons, htext, ih hlines, reader.toStr_text line text htext]
    rfl

theorem mapM_toStr_of_illegible (h : ¬ Legible lines) : lines.mapM reader.toStr = none := by
  induction lines with
  | nil => exact absurd (List.forall_mem_nil _) h
  | cons line lines ih =>
    rw [Legible, List.forall_mem_cons, not_and_or, ← reader.toStr_isSome] at h
    rw [List.mapM_cons]
    obtain hline | hlines := h
    · rw [Option.not_isSome_iff_eq_none.mp hline]
      rfl
    · rw [ih hlines]
      cases reader.toStr line <;> rfl

end

/-! ### The address -/

section
variable {reader : HeaderReader} {trusted : TrustedProxies} {peer ip : IpAddr}

/-- Trusted hops are passed over. -/
theorem walkHops_append {hops rest : List (List Char)}
    (h : ∀ hop ∈ hops, ∃ ip, parseHop (Pieces.trim isWhitespace hop) = some ip ∧
      TrustedProxies.contains trusted ip = true) :
    walkHops trusted peer (hops ++ rest) = walkHops trusted peer rest := by
  induction hops with
  | nil => rfl
  | cons hop hops ih =>
    obtain ⟨⟨ip, hparse, htrusted⟩, hhops⟩ := List.forall_mem_cons.mp h
    rw [List.cons_append, walkHops]
    simp only [hparse, contains_toCanonical, htrusted, if_true]
    exact ih hhops

/-- The first hop that is not trusted ends the walk. -/
theorem walkHops_untrusted {hop : List Char} {rest : List (List Char)}
    (hparse : parseHop (Pieces.trim isWhitespace hop) = some ip)
    (huntrusted : TrustedProxies.contains trusted ip = false) :
    walkHops trusted peer (hop :: rest) = ip.toCanonical := by
  rw [walkHops]
  simp only [hparse, contains_toCanonical, huntrusted, Bool.false_eq_true, if_false]

variable {headers : RequestHeaders}

theorem resolve_untrusted (h : TrustedProxies.contains trusted peer = false) :
    resolve reader peer headers trusted = peer.toCanonical := by
  rw [resolve, contains_toCanonical, h]
  rfl

/-- Behind a trusted peer, an unreadable line makes the peer the client. -/
theorem resolve_unreadable (hpeer : TrustedProxies.contains trusted peer = true)
    (h : ¬ Legible (headers.getAll "x-forwarded-for")) :
    resolve reader peer headers trusted = peer.toCanonical := by
  simp only [resolve, contains_toCanonical, hpeer, mapM_toStr_of_illegible h, Bool.not_true,
    Bool.false_eq_true, if_false]

/-- Otherwise the elements of all lines are walked. -/
theorem resolve_legible (hpeer : TrustedProxies.contains trusted peer = true)
    (h : Legible (headers.getAll "x-forwarded-for"))
    (hne : headers.getAll "x-forwarded-for" ≠ []) :
    resolve reader peer headers trusted = walkHops trusted peer.toCanonical
      (hopTexts (headers.getAll "x-forwarded-for")).reverse := by
  have hvalues : ((headers.getAll "x-forwarded-for").map fun line => line.map byteChar) ≠ [] :=
    mt List.map_eq_nil_iff.mp hne
  have hhopTexts : ([','].intercalate ((headers.getAll "x-forwarded-for").map fun line =>
      line.map byteChar)).splitOn ',' = hopTexts (headers.getAll "x-forwarded-for") := by
    rw [Pieces.splitOn_join hvalues, List.flatMap_map]
    rfl
  simp only [resolve, contains_toCanonical, hpeer, mapM_toStr_of_legible h, Bool.not_true,
    Bool.false_eq_true, if_false, List.isEmpty_iff, if_neg hvalues, hhopTexts]

theorem Appended.ne_nil {client lines : List (List UInt8)} {hops : List Hop}
    (h : Appended client hops lines) (hne : hops ≠ []) : lines ≠ [] := by
  cases h with
  | client => exact absurd rfl hne
  | newLine hop h => exact List.append_ne_nil_of_right_ne_nil _ (List.cons_ne_nil _ _)
  | sameLine hop h => exact List.append_ne_nil_of_right_ne_nil _ (List.cons_ne_nil _ _)

/-- **The client cannot choose its address**: an untrusted peer is the client, and behind a trusted
one it is the first untrusted hop, as long as what the client wrote can be read. -/
theorem client_address_iff (reader : HeaderReader) (trusted : TrustedProxies) (peer : IpAddr)
    (headers : RequestHeaders) :
    (TrustedProxies.contains trusted peer = false →
      resolve reader peer headers trusted = peer.toCanonical) ∧
    (TrustedProxies.contains trusted peer = true → ∀ client ip,
      Forwarded trusted client (headers.getAll "x-forwarded-for") ip →
        (resolve reader peer headers trusted = ip.toCanonical ↔ Legible client)) := by
  refine ⟨resolve_untrusted, ?_⟩
  rintro hpeer client ip ⟨c, ts, happended, hc, huntrusted, hts⟩
  rw [← legible_appended happended]
  constructor
  · intro hresolve
    by_contra hillegible
    -- the peer is trusted, and the client is not
    rw [resolve_unreadable hpeer hillegible] at hresolve
    have hsame := congrArg (TrustedProxies.contains trusted) hresolve
    rw [contains_toCanonical, contains_toCanonical, hpeer, huntrusted] at hsame
    cases hsame
  · intro hlegible
    rw [resolve_legible hpeer hlegible (happended.ne_nil (List.cons_ne_nil c ts)),
      hopTexts_appended happended, List.map_cons, List.reverse_append, List.reverse_cons,
      List.append_assoc, walkHops_append, List.singleton_append]
    · exact walkHops_untrusted hc huntrusted
    · intro hop hmem
      obtain ⟨t, ht, rfl⟩ := List.mem_map.mp (List.mem_reverse.mp hmem)
      exact hts t ht

end

/-! ### A prefix that cannot be read -/

/-- `198.51.100.7`, as a proxy in `10.0.0.0/8` appends it. -/
def appendedHop : Hop where
  bytes := "198.51.100.7".toList.map fun c => UInt8.ofNat c.toNat
  visible := by decide +kernel
  single := by decide +kernel

def tenNet : TrustedProxies := [.v4 0x0a000000#32 0xff000000#32]

/-- A request on which the client wrote one byte of Latin-1. -/
def latinHeaders : RequestHeaders :=
  [("x-forwarded-for", [0xe9] ++ 44 :: appendedHop.bytes)]

/-- The request is charged to the proxy, though the proxy named the client. -/
theorem unreadable_prefix_hides :
    TrustedProxies.contains tenNet (.v4 0x0a000001#32) = true ∧
      Forwarded tenNet [[0xe9]] (latinHeaders.getAll "x-forwarded-for") (.v4 0xc6336407#32) ∧
        resolve .documented (.v4 0x0a000001#32) latinHeaders tenNet ≠
          (IpAddr.v4 0xc6336407#32).toCanonical := by
  refine ⟨by decide +kernel, ⟨appendedHop, [], ?_, by decide +kernel, by decide +kernel, ?_⟩, by decide +kernel⟩
  · exact @Appended.sameLine [[0xe9]] [] [] [0xe9] appendedHop .client
  · exact List.forall_mem_nil _

/-- The same request without that byte. -/
theorem readable_prefix_resolved :
    resolve .documented (.v4 0x0a000001#32)
      [("x-forwarded-for", [0x78] ++ 44 :: appendedHop.bytes)] tenNet = .v4 0xc6336407#32 :=
  ((client_address_iff .documented tenNet (.v4 0x0a000001#32)
    [("x-forwarded-for", [0x78] ++ 44 :: appendedHop.bytes)]).2 (by decide +kernel) [[0x78]]
      (.v4 0xc6336407#32) ⟨appendedHop, [],
        @Appended.sameLine [[0x78]] [] [] [0x78] appendedHop .client, by decide +kernel,
          by decide +kernel, List.forall_mem_nil _⟩).mpr (by unfold Legible; decide +kernel)
