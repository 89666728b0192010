/-
`${env:VAR}` placeholders in provider configuration.

`interpolateStr` walks over a string once, with the text it has written so far.  A `$$` stands for
one dollar, `${env:…}` for the value of a variable, and every other character for itself.

The reading of a string is stated apart, as the list of its `pieces`, without an environment:
`interpolateStr_eq_pieces` says that the walk writes the text of every piece in turn.

* **`interpolate_once`** — a string with neither `$$` nor a placeholder is unchanged, doubled
  dollars give back the text without a lookup, and the value of a variable is written as it is;
* **`two_dollars_become_one`** — so a string without a placeholder can change.
-/
import Domarinn.Types
import Mathlib.Data.List.Infix

/-- `LoadError`. -/
inductive LoadError where
  | io (path source : String)
  | yaml (message : String)
  | deserialize (message : String)
  | cycle (path : String)
  | envMissing (path var : String)
  | envSyntax (path message : String)
deriving DecidableEq

namespace Interpolate

/-! ### Reading a placeholder -/

/-- The sigil that opens a placeholder. -/
def sigil : List Char := ['$', '{', 'e', 'n', 'v', ':']

/-- The text up to the closing brace, and the text behind it. -/
def closed? (body : List Char) : Option (List Char × List Char) :=
  match body.dropWhile (· != '}') with
  | [] => none
  | _ :: rest => some (body.takeWhile (· != '}'), rest)

/-- `inner.split_once(":-")`. -/
def splitOnce : List Char → Option (List Char × List Char)
  | [] => none
  | c :: cs =>
    if c = ':' ∧ cs.head? = some '-' then some ([], cs.tail)
    else (splitOnce cs).map fun (before, after) => (c :: before, after)

variable {m : Type → Type} [Monad m]

/-- `resolve_placeholder`. -/
def resolvePlaceholder (resolve : String → m (Option String)) (path : String)
    (inner : List Char) : m (Except LoadError (List Char)) :=
  let (var, default?) := match splitOnce inner with
    | some (var, value) => (var, some value)
    | none => (inner, none)
  if var = [] then
    pure (.error (.envSyntax path "empty variable name in `$\x7benv:\x7d`"))
  else do
    match ← resolve (String.ofList var) with
    | some value => pure (.ok value.toList)
    | none =>
      match default? with
      | some value => pure (.ok value)
      | none => pure (.error (.envMissing path (String.ofList var)))

theorem length_of_closed? {body inner rest : List Char} (h : closed? body = some (inner, rest)) :
    rest.length < body.length := by
  rw [closed?] at h
  have hdrop := (List.dropWhile_suffix (l := body) (· != '}')).length_le
  cases hbody : body.dropWhile (· != '}') with
  | nil =>
    rw [hbody] at h
    cases h
  | cons c cs =>
    rw [hbody] at h
    rw [hbody, List.length_cons] at hdrop
    obtain ⟨-, rfl⟩ := Prod.mk.inj (Option.some_inj.mp h)
    omega

/-- A placeholder's text, its brace and what is behind it. -/
theorem append_of_closed? {body inner rest : List Char} (h : closed? body = some (inner, rest)) :
    inner ++ '}' :: rest = body := by
  rw [closed?] at h
  have hsplit : body.takeWhile (· != '}') ++ body.dropWhile (· != '}') = body :=
    List.takeWhile_append_dropWhile
  cases hbody : body.dropWhile (· != '}') with
  | nil =>
    rw [hbody] at h
    cases h
  | cons c cs =>
    rw [hbody] at h hsplit
    obtain ⟨rfl, rfl⟩ := Prod.mk.inj (Option.some_inj.mp h)
    -- the text stops in front of a brace
    have hbrace := List.head?_dropWhile_not (· != '}') body
    rw [hbody] at hbrace
    have hc : c = '}' := bne_eq_false_iff_eq.mp hbrace
    rwa [hc] at hsplit

/-! ### The walk -/

/-- The syntax error of a placeholder that is never closed. -/
def unterminated (path : String) (rest : List Char) : LoadError :=
  let text := String.ofList rest
  .envSyntax path s!"unterminated placeholder starting at `{text}`"

/-- The walk over the rest of a string: `out` is the text so far, `changed` whether anything was
replaced. -/
def scan (resolve : String → m (Option String)) (path : String) (out : List Char)
    (changed : Bool) : List Char → m (Except LoadError (List Char × Bool))
  | [] => pure (.ok (out, changed))
  | c :: cs =>
    -- an escaped dollar; what follows is ordinary text
    if c = '$' ∧ cs.head? = some '$' then scan resolve path (out ++ ['$']) true cs.tail
    else if sigil.isPrefixOf (c :: cs) then
      match _hclosed : closed? (cs.drop 5) with
      | none => pure (.error (unterminated path (c :: cs)))
      | some (inner, rest) => do
        match ← resolvePlaceholder resolve path inner with
        | .error e => pure (.error e)
        | .ok value => scan resolve path (out ++ value) true rest
    else scan resolve path (out ++ [c]) changed cs
termination_by text => text.length
decreasing_by
  · rw [List.length_tail, List.length_cons]
    omega
  · have hlength := length_of_closed? _hclosed
    rw [List.length_drop] at hlength
    rw [List.length_cons]
    omega
  · rw [List.length_cons]
    omega

/-- `interpolate_str`: nothing where the string is unchanged. -/
def interpolateStr (resolve : String → m (Option String)) (path s : String) :
    m (Except LoadError (Option String)) :=
  if '$' ∉ s.toList then pure (.ok none)
  else do
    match ← scan resolve path [] false s.toList with
    | .error e => pure (.error e)
    | .ok (out, changed) => pure (.ok (if changed then some (String.ofList out) else none))

/-- The string that is left in place: the `Yaml::String` arm of `interp_subtree`. -/
def interpolated (resolve : String → m (Option String)) (path s : String) :
    m (Except LoadError String) := do
  match ← interpolateStr resolve path s with
  | .error e => pure (.error e)
  | .ok replaced => pure (.ok (replaced.getD s))

/-! ### The pieces of a string -/

/-- What a part of a string stands for: itself, one dollar, or the value of a variable. -/
inductive Piece where
  | char (c : Char)
  | dollar
  | env (inner : List Char)
deriving DecidableEq

/-- The part itself. -/
def Piece.source : Piece → List Char
  | char c => [c]
  | dollar => ['$', '$']
  | env inner => sigil ++ inner ++ ['}']

/-- The pieces of a string, and what is left from a placeholder on that is never closed. -/
def pieces : List Char → List Piece × List Char
  | [] => ([], [])
  | c :: cs =>
    if c = '$' ∧ cs.head? = some '$' then (pieces cs.tail).map (.dollar :: ·) id
    else if sigil.isPrefixOf (c :: cs) then
      match _hclosed : closed? (cs.drop 5) with
      | none => ([], c :: cs)
      | some (inner, rest) => (pieces rest).map (.env inner :: ·) id
    else (pieces cs).map (.char c :: ·) id
termination_by text => text.length
decreasing_by
  · rw [List.length_tail, List.length_cons]
    omega
  · have hlength := length_of_closed? _hclosed
    rw [List.length_drop] at hlength
    rw [List.length_cons]
    omega
  · rw [List.length_cons]
    omega

/-- The text that a piece stands for. -/
def Piece.value (resolve : String → m (Option String)) (path : String) :
    Piece → m (Except LoadError (List Char))
  | char c => pure (.ok [c])
  | dollar => pure (.ok ['$'])
  | env inner => resolvePlaceholder resolve path inner

/-- The texts of the pieces in turn, up to the first that has none; after them, the syntax error
where a placeholder is left. -/
def write (resolve : String → m (Option String)) (path : String) (rest : List Char) :
    List Piece → m (Except LoadError (List Char))
  | [] => pure (if rest = [] then .ok [] else .error (unterminated path rest))
  | piece :: more => do
    match ← piece.value resolve path with
    | .error e => pure (.error e)
    | .ok text =>
      match ← write resolve path rest more with
      | .error e => pure (.error e)
      | .ok texts => pure (.ok (text ++ texts))

/-- Not a character that stands for itself. -/
def Piece.replaces : Piece → Bool
  | char _ => false
  | _ => true

/-! ### The walk writes the pieces -/

section Walk

variable [LawfulMonad m] {resolve : String → m (Option String)} {path : String}

theorem scan_eq_write (out : List Char) (changed : Bool) (text : List Char) :
    scan resolve path out changed text = (do
      match ← write resolve path (pieces text).2 (pieces text).1 with
      | .error e => pure (.error e)
      | .ok written =>
        pure (.ok (out ++ written, changed || (pieces text).1.any Piece.replaces))) := by
  fun_induction pieces text generalizing out changed with
  | case1 => simp [scan, write]
  | case2 c cs h ih =>
    -- one dollar for two
    rw [scan, if_pos h, ih]
    simp only [Prod.map_fst, Prod.map_snd, id, write, Piece.value, pure_bind, bind_assoc]
    refine bind_congr fun written => ?_
    cases written <;> simp [Piece.replaces]
  | case3 c cs h hsig hclosed =>
    -- a placeholder without its brace
    rw [scan, if_neg h, if_pos hsig]
    split
    · simp [write]
    · rename_i hsome
      rw [hclosed] at hsome
      cases hsome
  | case4 c cs h hsig inner rest hclosed ih =>
    rw [scan, if_neg h, if_pos hsig]
    split
    · rename_i hnone
      rw [hclosed] at hnone
      cases hnone
    · rename_i hsome
      rw [hclosed] at hsome
      obtain ⟨rfl, rfl⟩ := Prod.mk.inj (Option.some_inj.mp hsome)
      -- both look the variable up once, and go on with its value behind them
      simp only [Prod.map_fst, Prod.map_snd, id, write, Piece.value, bind_assoc]
      refine bind_congr fun value => ?_
      cases value with
      | error e => simp
      | ok value =>
        simp only [ih, bind_assoc]
        refine bind_congr fun written => ?_
        cases written <;> simp [Piece.replaces]
  | case5 c cs h hsig ih =>
    rw [scan, if_neg h, if_neg hsig, ih]
    simp only [Prod.map_fst, Prod.map_snd, id, write, Piece.value, pure_bind, bind_assoc]
    refine bind_congr fun written => ?_
    cases written <;> simp [Piece.replaces]

/-- The walk over a string that has nothing to replace. -/
theorem pieces_plain {text : List Char} (hdollars : ¬ ['$', '$'] <:+: text)
    (hsigil : ¬ sigil <:+: text) : pieces text = (text.map .char, []) := by
  induction text with
  | nil => rw [pieces, List.map_nil]
  | cons c cs ih =>
    have hescape : ¬ (c = '$' ∧ cs.head? = some '$') := by
      rintro ⟨rfl, hhead⟩
      obtain ⟨rest, rfl⟩ := List.head?_eq_some_iff.mp hhead
      exact hdollars ⟨[], rest, rfl⟩
    have hstart : ¬ sigil.isPrefixOf (c :: cs) = true := fun h =>
      hsigil (List.isPrefixOf_iff_prefix.mp h).isInfix
    have hrest := ih (fun h => hdollars (h.trans (List.suffix_cons c cs).isInfix))
      fun h => hsigil (h.trans (List.suffix_cons c cs).isInfix)
    rw [pieces, if_neg hescape, if_neg hstart, hrest]
    rfl

theorem write_chars (rest text : List Char) : write resolve path rest (text.map Piece.char) =
    pure (if rest = [] then .ok text else .error (unterminated path rest)) := by
  induction text with
  | nil => rfl
  | cons c cs ih =>
    rw [List.map_cons, write, Piece.value, pure_bind]
    dsimp only
    rw [ih, pure_bind]
    split_ifs <;> rfl

theorem exists_map_char {ps : List Piece} (h : ps.any Piece.replaces = false) :
    ∃ text : List Char, ps = text.map Piece.char := by
  induction ps with
  | nil => exact ⟨[], rfl⟩
  | cons p ps ih =>
    rw [List.any_cons, Bool.or_eq_false_iff] at h
    obtain ⟨text, rfl⟩ := ih h.2
    cases p with
    | char c => exact ⟨c :: text, rfl⟩
    | dollar | env inner => cases h.1

/-- **What `interpolate_str` does**: it writes the pieces of the string, and tells whether one of
them is not itself. -/
theorem interpolateStr_eq_pieces (s : String) :
    interpolateStr resolve path s = (do
      match ← write resolve path (pieces s.toList).2 (pieces s.toList).1 with
      | .error e => pure (.error e)
      | .ok text => pure (.ok (if (pieces s.toList).1.any Piece.replaces then
          some (String.ofList text) else none))) := by
  rw [interpolateStr]
  by_cases h : '$' ∈ s.toList
  · rw [if_neg (not_not_intro h), scan_eq_write, bind_assoc]
    refine bind_congr fun written => ?_
    cases written with
    | error e => rw [pure_bind]
    | ok text => rw [pure_bind, List.nil_append, Bool.false_or]
  · -- without a dollar the string is not walked over
    have hchars : pieces s.toList = (s.toList.map .char, []) :=
      pieces_plain (fun hin => h (hin.subset List.mem_cons_self))
        fun hin => h (hin.subset List.mem_cons_self)
    have hany : (s.toList.map Piece.char).any Piece.replaces = false := by
      rw [List.any_map, List.any_eq_false]
      exact fun _ _ => Bool.false_ne_true
    rw [if_pos h, hchars, write_chars, if_pos rfl, pure_bind, hany]
    rfl

/-- The pieces are the string, part by part. -/
theorem source_pieces (text : List Char) :
    (pieces text).1.flatMap Piece.source ++ (pieces text).2 = text := by
  fun_induction pieces text with
  | case1 => rfl
  | case2 c cs h ih =>
    obtain ⟨rfl, hhead⟩ := h
    obtain ⟨rest, rfl⟩ := List.head?_eq_some_iff.mp hhead
    rw [List.tail_cons] at ih
    simp [Piece.source, ih]
  | case3 c cs h hsig hclosed => rfl
  | case4 c cs h hsig inner rest hclosed ih =>
    obtain ⟨body, hbody⟩ := List.isPrefixOf_iff_prefix.mp hsig
    obtain ⟨rfl, rfl⟩ := List.cons.inj hbody
    rw [Prod.map_fst, Prod.map_snd, id, List.flatMap_cons, List.append_assoc, ih]
    have hbody := append_of_closed? hclosed
    rw [Piece.source, List.append_assoc, List.append_assoc, List.singleton_append, hbody]
    rfl
  | case5 c cs h hsig ih => simp [Piece.source, ih]

/-! ### Doubled dollars -/

/-- Every `$` of a text, twice. -/
def doubled (text : List Char) : List Char :=
  text.flatMap fun c => if c = '$' then ['$', '$'] else [c]

theorem doubled_dollar (cs : List Char) : doubled ('$' :: cs) = '$' :: '$' :: doubled cs := rfl

theorem doubled_cons {c : Char} (hc : c ≠ '$') (cs : List Char) :
    doubled (c :: cs) = c :: doubled cs := by
  rw [doubled, List.flatMap_cons, if_neg hc]
  rfl

theorem pieces_doubled (text : List Char) : pieces (doubled text) =
    (text.map fun c => if c = '$' then Piece.dollar else .char c, []) := by
  induction text with
  | nil => rw [doubled, List.flatMap_nil, pieces, List.map_nil]
  | cons c cs ih =>
    rw [List.map_cons]
    by_cases hc : c = '$'
    · rw [hc, doubled_dollar, if_pos rfl, pieces, if_pos ⟨rfl, rfl⟩, List.tail_cons, ih]
      rfl
    · have hstart : ¬ sigil.isPrefixOf (c :: doubled cs) = true := by
        rw [sigil, List.isPrefixOf_cons_cons, Bool.and_eq_true, beq_iff_eq]
        exact fun h => hc h.1.symm
      rw [doubled_cons hc, if_neg hc, pieces, if_neg fun h => hc h.1, if_neg hstart, ih]
      rfl

theorem write_dollars (text : List Char) :
    write resolve path [] (text.map fun c => if c = '$' then Piece.dollar else .char c) =
      pure (.ok text) := by
  induction text with
  | nil => rfl
  | cons c cs ih =>
    have hvalue : (if c = '$' then Piece.dollar else .char c).value resolve path =
        pure (.ok [c]) := by
      split_ifs with hc
      · rw [hc]
        rfl
      · rfl
    rw [List.map_cons, write, hvalue, pure_bind]
    dsimp only
    rw [ih, pure_bind]
    rfl

/-! ### What is left in place -/

/-- Wherever a piece is not itself or the walk fails, the string is replaced by the text of its
pieces; else the pieces are the string. -/
theorem interpolated_eq_write (s : String) :
    interpolated resolve path s = (fun text => text.map String.ofList) <$>
      write resolve path (pieces s.toList).2 (pieces s.toList).1 := by
  rw [interpolated, interpolateStr_eq_pieces, bind_assoc, map_eq_pure_bind]
  cases hany : (pieces s.toList).1.any Piece.replaces with
  | true =>
    refine bind_congr fun written => ?_
    cases written <;> exact pure_bind _ _
  | false =>
    -- nothing was replaced, and the string is left as it is
    obtain ⟨text, htext⟩ := exists_map_char hany
    have hsource := source_pieces s.toList
    have hself : (text.map Piece.char).flatMap Piece.source = text := by
      rw [List.flatMap_map]
      exact List.flatMap_singleton' text
    rw [htext, hself] at hsource
    rw [htext, write_chars, pure_bind, pure_bind]
    by_cases hrest : (pieces s.toList).2 = []
    · -- every piece is the character that it stands for
      rw [hrest, List.append_nil] at hsource
      rw [if_pos hrest, hsource]
      refine (pure_bind _ _).trans ?_
      rw [Except.map, String.ofList_toList]
      rfl
    · rw [if_neg hrest]
      exact pure_bind _ _

/-- **Only placeholders and doubled dollars are touched, and once**: a string with neither is
unchanged; doubled dollars give back the text, whatever the environment and without a lookup; and
every string is read into its parts before a variable is looked up, so that the value of a
placeholder is written as it is. -/
theorem interpolate_once (resolve : String → m (Option String)) (path s : String)
    (text : List Char) :
    (¬ ['$', '$'] <:+: s.toList → ¬ sigil <:+: s.toList →
        interpolateStr resolve path s = pure (.ok none)) ∧
      interpolated resolve path (String.ofList (doubled text)) = pure (.ok (String.ofList text)) ∧
      (pieces s.toList).1.flatMap Piece.source ++ (pieces s.toList).2 = s.toList ∧
      interpolated resolve path s = (fun text => text.map String.ofList) <$>
        write resolve path (pieces s.toList).2 (pieces s.toList).1 := by
  refine ⟨fun hdollars hsigil => ?_, ?_, source_pieces _, interpolated_eq_write s⟩
  · have hany : (s.toList.map Piece.char).any Piece.replaces = false := by
      rw [List.any_map, List.any_eq_false]
      exact fun _ _ => Bool.false_ne_true
    rw [interpolateStr_eq_pieces, pieces_plain hdollars hsigil, write_chars, if_pos rfl,
      pure_bind, hany]
    rfl
  · rw [interpolated_eq_write, String.toList_ofList, pieces_doubled, write_dollars, map_pure]
    rfl

end Walk

/-! ### Three strings -/

/-- An environment that remembers what it was asked for; the value of `A` looks like a
placeholder. -/
def rememberingEnv (var : String) : StateM (List String) (Option String) := do
  modify (· ++ [var])
  pure (if var = "A" then some "$\x7benv:B\x7d" else none)

theorem pieces_placeholder :
    pieces ['$', '{', 'e', 'n', 'v', ':', 'A', '}'] = ([.env ['A']], []) := by
  rw [pieces, if_neg (by decide), if_pos (by decide)]
  split
  · rename_i hnone
    cases hnone
  · rename_i hsome
    obtain ⟨rfl, rfl⟩ := Prod.mk.inj (Option.some_inj.mp hsome)
    rw [pieces]
    rfl

/-- `$HOME` stays, `$$` becomes a dollar, and the value of `A` is not looked at. -/
theorem interpolate_once_remembered :
    interpolateStr rememberingEnv "p" "$HOME" = pure (.ok none) ∧
      interpolated rememberingEnv "p" "$$" = pure (.ok "$") ∧
      StateT.run (interpolated rememberingEnv "p" "$\x7benv:A\x7d") [] =
        (.ok "$\x7benv:B\x7d", ["A"]) := by
  obtain ⟨hplain, -⟩ := interpolate_once rememberingEnv "p" "$HOME" []
  obtain ⟨-, hdoubled, -, hvalue⟩ := interpolate_once rememberingEnv "p" "$\x7benv:A\x7d" ['$']
  refine ⟨hplain (by decide) (by decide), hdoubled, ?_⟩
  have hpieces : pieces "$\x7benv:A\x7d".toList = ([.env ['A']], []) := pieces_placeholder
  rw [hvalue, hpieces]
  rfl

/-- `$$` has no placeholder in it, and becomes `$`. -/
theorem two_dollars_become_one : ¬ ∀ (resolve : String → Id (Option String)) (path s : String),
    ¬ sigil <:+: s.toList → interpolated resolve path s = pure (.ok s) := by
  intro h
  have hkept := h (fun _ => pure none) "p" "$$" fun hin => absurd hin.length_le (by decide)
  have hwritten : interpolated (m := Id) (fun _ => pure none) "p" "$$" = pure (.ok "$") := by
    have hpieces : pieces "$$".toList = ([.dollar], []) := pieces_doubled ['$']
    rw [interpolated_eq_write, hpieces]
    rfl
  rw [hwritten] at hkept
  exact absurd (Except.ok.inj hkept) (by decide)

end Interpolate
