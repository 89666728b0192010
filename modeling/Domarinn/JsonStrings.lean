/-
The strings and the member names that occur in a JSON document, at every depth.

* **`map_snd_located`** — the strings with their paths are the strings, in one order;
* **`throughout_obj`**, **`throughout_arr`** — what holds of every name and string of a document
  holds of every name and string of its parts, and conversely;
* **`insertMember_fresh`** — a member of a new name is added last.
-/
import Domarinn.JsonMembers

namespace Json

/-! ### Names and strings -/

mutual

/-- The member names in a document. -/
def keys : Json → List String
  | arr items => keysOfItems items
  | obj members => keysOfMembers members
  | _ => []

def keysOfItems : List Json → List String
  | [] => []
  | x :: xs => keys x ++ keysOfItems xs

def keysOfMembers : List (String × Json) → List String
  | [] => []
  | (k, v) :: ms => k :: keys v ++ keysOfMembers ms

end

mutual

/-- The strings in a document, member names apart. -/
def strings : Json → List String
  | str s => [s]
  | arr items => stringsOfItems items
  | obj members => stringsOfMembers members
  | _ => []

def stringsOfItems : List Json → List String
  | [] => []
  | x :: xs => strings x ++ stringsOfItems xs

def stringsOfMembers : List (String × Json) → List String
  | [] => []
  | (_, v) :: ms => strings v ++ stringsOfMembers ms

end

mutual

/-- The strings in a document, each with the path of names and indices that leads to it. -/
def located (path : String) : Json → List (String × String)
  | str s => [(path, s)]
  | arr items => locatedItems path 0 items
  | obj members => locatedMembers path members
  | _ => []

def locatedItems (path : String) : ℕ → List Json → List (String × String)
  | _, [] => []
  | i, x :: xs => located (path ++ "/" ++ toString i) x ++ locatedItems path (i + 1) xs

def locatedMembers (path : String) : List (String × Json) → List (String × String)
  | [] => []
  | (k, v) :: ms => located (path ++ "/" ++ k) v ++ locatedMembers path ms

end

section
variable {k : String} {v : Json} {items : List Json} {ms ns : List (String × Json)}

@[simp] theorem keys_str (s : String) : keys (str s) = [] := by rw [keys] <;> nofun

@[simp] theorem strings_str (s : String) : strings (str s) = [s] := by rw [strings]

theorem keys_arr : keys (arr items) = items.flatMap keys := by
  rw [keys]
  induction items with
  | nil => rw [keysOfItems, List.flatMap_nil]
  | cons x xs ih => rw [keysOfItems, ih, List.flatMap_cons]

theorem strings_arr : strings (arr items) = items.flatMap strings := by
  rw [strings]
  induction items with
  | nil => rw [stringsOfItems, List.flatMap_nil]
  | cons x xs ih => rw [stringsOfItems, ih, List.flatMap_cons]

theorem keys_obj : keys (obj ms) = ms.flatMap fun m => m.1 :: keys m.2 := by
  rw [keys]
  induction ms with
  | nil => rw [keysOfMembers, List.flatMap_nil]
  | cons m ms ih => rw [keysOfMembers, ih, List.flatMap_cons]

theorem strings_obj : strings (obj ms) = ms.flatMap fun m => strings m.2 := by
  rw [strings]
  induction ms with
  | nil => rw [stringsOfMembers, List.flatMap_nil]
  | cons m ms ih => rw [stringsOfMembers, ih, List.flatMap_cons]

theorem keys_obj_append : keys (obj (ms ++ ns)) = keys (obj ms) ++ keys (obj ns) := by
  rw [keys_obj, keys_obj, keys_obj, List.flatMap_append]

theorem strings_obj_append : strings (obj (ms ++ ns)) = strings (obj ms) ++ strings (obj ns) := by
  rw [strings_obj, strings_obj, strings_obj, List.flatMap_append]

mutual

/-- Paths only annotate: the strings are the same, in the same order. -/
theorem map_snd_located : ∀ (v : Json) (path : String), (located path v).map Prod.snd = strings v
  | null, _ | bool _, _ | num _, _ => by rw [located, strings, List.map_nil] <;> nofun
  | str s, _ => by rw [located, strings, List.map_cons, List.map_nil]
  | arr items, path => by rw [located, strings, map_snd_locatedItems items path 0]
  | obj members, path => by rw [located, strings, map_snd_locatedMembers members path]

theorem map_snd_locatedItems : ∀ (xs : List Json) (path : String) (i : ℕ),
    (locatedItems path i xs).map Prod.snd = stringsOfItems xs
  | [], _, _ => by rw [locatedItems, stringsOfItems, List.map_nil]
  | x :: xs, path, i => by
    rw [locatedItems, stringsOfItems, List.map_append, map_snd_located x, map_snd_locatedItems xs]

theorem map_snd_locatedMembers : ∀ (ms : List (String × Json)) (path : String),
    (locatedMembers path ms).map Prod.snd = stringsOfMembers ms
  | [], _ => by rw [locatedMembers, stringsOfMembers, List.map_nil]
  | (k, v) :: ms, path => by
    rw [locatedMembers, stringsOfMembers, List.map_append, map_snd_located v,
      map_snd_locatedMembers ms]

end

/-! ### Properties of every name and string -/

/-- Every member name and every string of a document has the property. -/
structure Throughout (P : String → Prop) (v : Json) : Prop where
  keys : ∀ k ∈ v.keys, P k
  strings : ∀ s ∈ v.strings, P s

variable {P : String → Prop}

theorem throughout_arr : Throughout P (arr items) ↔ ∀ x ∈ items, Throughout P x := by
  constructor
  · intro h x hx
    refine ⟨fun k hk => h.keys k ?_, fun s hs => h.strings s ?_⟩
    · rw [keys_arr]
      exact List.mem_flatMap_of_mem hx hk
    · rw [strings_arr]
      exact List.mem_flatMap_of_mem hx hs
  · intro h
    refine ⟨fun k hk => ?_, fun s hs => ?_⟩
    · rw [keys_arr] at hk
      obtain ⟨x, hx, hk⟩ := List.mem_flatMap.mp hk
      exact (h x hx).keys k hk
    · rw [strings_arr] at hs
      obtain ⟨x, hx, hs⟩ := List.mem_flatMap.mp hs
      exact (h x hx).strings s hs

theorem throughout_obj : Throughout P (obj ms) ↔ ∀ m ∈ ms, P m.1 ∧ Throughout P m.2 := by
  constructor
  · intro h m hm
    refine ⟨h.keys m.1 ?_, fun k hk => h.keys k ?_, fun s hs => h.strings s ?_⟩
    · rw [keys_obj]
      exact List.mem_flatMap_of_mem hm List.mem_cons_self
    · rw [keys_obj]
      exact List.mem_flatMap_of_mem hm (List.mem_cons_of_mem _ hk)
    · rw [strings_obj]
      exact List.mem_flatMap_of_mem hm hs
  · intro h
    refine ⟨fun k hk => ?_, fun s hs => ?_⟩
    · rw [keys_obj] at hk
      obtain ⟨m, hm, hk⟩ := List.mem_flatMap.mp hk
      obtain rfl | hk := List.mem_cons.mp hk
      · exact (h m hm).1
      · exact (h m hm).2.keys k hk
    · rw [strings_obj] at hs
      obtain ⟨m, hm, hs⟩ := List.mem_flatMap.mp hs
      exact (h m hm).2.strings s hs

@[simp] theorem throughout_str (s : String) : Throughout P (str s) ↔ P s := by
  refine ⟨fun h => h.strings s ?_, fun h => ⟨?_, ?_⟩⟩
  · rw [strings_str]
    exact List.mem_singleton_self s
  · rw [keys_str]
    exact fun _ hk => absurd hk List.not_mem_nil
  · rw [strings_str]
    rintro _ hs
    obtain rfl := List.mem_singleton.mp hs
    exact h

@[simp] theorem throughout_null : Throughout P null := by
  constructor
  · rw [keys] <;> nofun
  · rw [strings] <;> nofun

theorem Throughout.member {w : Json} (h : Throughout P v) (hv : getMember v k = some w) :
    Throughout P w := by
  cases v with
  | obj members =>
    obtain ⟨m, hm, rfl⟩ := Option.map_eq_some_iff.mp hv
    exact (throughout_obj.mp h m (List.mem_of_find?_eq_some hm)).2
  | _ => cases hv

/-! ### Adding a member -/

theorem insertMember_fresh (h : k ∉ names ms) (v : Json) :
    insertMember k v ms = ms ++ [(k, v)] := by
  induction ms with
  | nil => rfl
  | cons m ms ih =>
    obtain ⟨hne, hrest⟩ := not_or.mp fun hk => h (List.mem_cons.mpr hk)
    rw [insertMember, if_neg fun heq => hne heq.symm, ih hrest, List.cons_append]

end

end Json
