/-
Purging the local disk cache.

The walk goes over the shards and their files and removes what the filter selects.  Everything
goes only when the filter names nothing; otherwise an age is judged by the time of the file, and
the entry is read only when the filter asks about it.  Times are `chrono`'s, which end: a time
that cannot be represented is a panic.

* **`purge_narrows`** — a filter that sets more removes no more, whatever happens on the way.
* **`purge_sound_iff`** — what goes is exactly what matches every predicate set, and that many
  are reported, exactly when the walk is not cut short and what matches can be removed.
-/
import Domarinn.DiskCache
import Domarinn.EntryIndex

/-! ### Times -/

/-- The first and the last time of `DateTime<Utc>`, in nanoseconds since the epoch. -/
def minUtc : ℤ := -8334601228800 * 10 ^ 9
def maxUtc : ℤ := 8210266876799 * 10 ^ 9 + 999999999

/-- A time that `DateTime<Utc>` can represent. -/
def InUtc (t : ℤ) : Prop := minUtc ≤ t ∧ t ≤ maxUtc

instance (t : ℤ) : Decidable (InUtc t) := inferInstanceAs (Decidable (_ ∧ _))

/-! ### Filters -/

/-- What a purge may remove; a duration counts nanoseconds. -/
structure PurgeFilter where
  olderThan : Option ℤ
  newerThan : Option ℤ
  emptyReason : List EmptyReason
  model : Option String
  kind : Option String

namespace PurgeFilter

/-- The default filter names nothing. -/
def empty : PurgeFilter := ⟨none, none, [], none, none⟩

/-- `is_default`. -/
def isDefault (filter : PurgeFilter) : Bool :=
  filter.olderThan.isNone && filter.newerThan.isNone && filter.emptyReason.isEmpty &&
    filter.model.isNone && filter.kind.isNone

/-- `is_age_only`. -/
def isAgeOnly (filter : PurgeFilter) : Bool :=
  filter.emptyReason.isEmpty && filter.model.isNone && filter.kind.isNone

/-- `matches_entry`. -/
def matchesEntry (filter : PurgeFilter) (entry : CacheEntry) : Bool :=
  let reasonOk := filter.emptyReason.isEmpty || entry.emptyReason.any fun found =>
    filter.emptyReason.any fun want => want.clamped = found.clamped
  let modelOk := match filter.model with
    | none => true
    | some want => entry.model = some want
  let kindOk := match filter.kind with
    | none => true
    | some want => entry.inferredKind = some want
  reasonOk && modelOk && kindOk

/-- A filter sets what another sets, and may set more. -/
structure Narrows (filter narrower : PurgeFilter) : Prop where
  olderThan : filter.olderThan = none ∨ narrower.olderThan = filter.olderThan
  newerThan : filter.newerThan = none ∨ narrower.newerThan = filter.newerThan
  emptyReason : filter.emptyReason = [] ∨ narrower.emptyReason = filter.emptyReason
  model : filter.model = none ∨ narrower.model = filter.model
  kind : filter.kind = none ∨ narrower.kind = filter.kind

end PurgeFilter

/-! ### The store as the walk finds it -/

/-- A file of a shard: its name, when it was modified, what reading it gives, and whether it can
be removed. -/
structure DirFile where
  name : String
  modified : Option ℤ
  body : Except String Bytes
  removable : Bool

/-- An extension is what follows the last dot, and a name that starts with its only dot has
none. -/
def DirFile.isJson (file : DirFile) : Bool :=
  ".json".toList.isSuffixOf file.name.toList && file.name ≠ ".json"

/-- What a file holds, if it can be read as an entry. -/
def DirFile.entry? (codec : EntryCodec) (file : DirFile) : Option CacheEntry :=
  file.body.toOption.bind fun bytes => (codec.parse bytes).toOption

/-- A listing fails at its start or at any of its entries. -/
abbrev Listing (α : Type) := Except String (List (Except String α))

/-- What is in the root of a store; only directories are listed. -/
structure Shard where
  isDir : Bool
  files : Listing DirFile

/-- The root of a store. -/
inductive StoreRoot where
  | notFound
  | failed (e : String)
  | shards (entries : List (Except String Shard))

/-! ### The walk -/

/-- Why a purge stopped before its end. -/
inductive PurgeStop where
  | reading (e : String)
  | iteratingShards (e : String)
  | readingShard (e : String)
  | iteratingShard (e : String)
  | panicked

/-- What a purge has counted and removed. -/
structure Purged where
  removed : ℕ
  gone : List DirFile

/-- A purge that stops has removed what it removed. -/
abbrev PurgeResult := Except (Purged × PurgeStop) Purged

/-- `matches_age`: a bound that is unset holds, and no bound holds of a time that is unknown. -/
def matchesAge (older newer modified : Option ℤ) : Bool :=
  (match older with
    | none => true
    | some cutoff => modified.any (· < cutoff)) &&
  match newer with
    | none => true
    | some cutoff => modified.any (cutoff ≤ ·)

section
variable (codec : EntryCodec) (filter : PurgeFilter) (older newer : Option ℤ)

/-- Whether a file is to go, or `none` when its time is not one of `DateTime<Utc>`. -/
def shouldRemove (file : DirFile) : Option Bool :=
  if filter.isDefault then some true
  else if file.modified.any fun t => !decide (InUtc t) then none
  else if !matchesAge older newer file.modified then some false
  else if filter.isAgeOnly then some true
  else match file.body with
    | .ok bytes => some (((codec.parse bytes).toOption.map filter.matchesEntry).getD false)
    | .error _ => some false

/-- `remove_file`, counted when it succeeds. -/
def Purged.remove (s : Purged) (file : DirFile) : Purged :=
  if file.removable then ⟨s.removed + 1, s.gone ++ [file]⟩ else s

/-- One file of a shard. -/
def purgeFile (file : DirFile) (s : Purged) : PurgeResult :=
  if !file.isJson then .ok s
  else match shouldRemove codec filter older newer file with
    | none => .error (s, .panicked)
    | some true => .ok (s.remove file)
    | some false => .ok s

/-- The files of a shard. -/
def purgeFiles : List (Except String DirFile) → Purged → PurgeResult
  | [], s => .ok s
  | .error e :: _, s => .error (s, .iteratingShard e)
  | .ok file :: files, s => do
    let s ← purgeFile codec filter older newer file s
    purgeFiles files s

/-- The shards of a store. -/
def purgeShards : List (Except String Shard) → Purged → PurgeResult
  | [], s => .ok s
  | .error e :: _, s => .error (s, .iteratingShards e)
  | .ok shard :: shards, s =>
    if !shard.isDir then purgeShards shards s
    else match shard.files with
      | .error e => .error (s, .readingShard e)
      | .ok files => do
        let s ← purgeFiles codec filter older newer files s
        purgeShards shards s

end

/-- `now - d`, when it is a time of `DateTime<Utc>`. -/
def purgeCutoff (now : ℤ) : Option ℤ → Option (Option ℤ)
  | none => some none
  | some d => if InUtc (now - d) then some (some (now - d)) else none

/-- `LocalDiskCache::purge`. -/
def purge (codec : EntryCodec) (now : ℤ) (filter : PurgeFilter) (root : StoreRoot) : PurgeResult :=
  match purgeCutoff now filter.olderThan, purgeCutoff now filter.newerThan with
  | some older, some newer => match root with
    | .notFound => .ok ⟨0, []⟩
    | .failed e => .error (⟨0, []⟩, .reading e)
    | .shards entries => purgeShards codec filter older newer entries ⟨0, []⟩
  | _, _ => .error (⟨0, []⟩, .panicked)

/-- What a purge has removed, whether it came to its end or not. -/
def goneOf (r : PurgeResult) : List DirFile :=
  match r with
  | .ok s => s.gone
  | .error (s, _) => s.gone

/-! ### What a filter says -/

section
variable (codec : EntryCodec) (now : ℤ)

namespace PurgeFilter

/-- The predicates set on when a file was modified. -/
def agePredicates (filter : PurgeFilter) : List (ℤ → Bool) :=
  (filter.olderThan.toList.map fun d modified => decide (modified < now - d)) ++
    filter.newerThan.toList.map fun d modified => decide (now - d ≤ modified)

/-- The predicates set on the entry. -/
def entryPredicates (filter : PurgeFilter) : List (CacheEntry → Bool) :=
  (if filter.emptyReason.isEmpty then []
    else [fun entry => entry.emptyReason.any fun found =>
      filter.emptyReason.any fun want => want.clamped = found.clamped]) ++
  (filter.model.toList.map fun want entry => decide (entry.model = some want)) ++
  filter.kind.toList.map fun want entry => decide (entry.inferredKind = some want)

/-- A file matches a filter when every predicate set holds of it; of what is not known none
holds. -/
def selects (filter : PurgeFilter) (file : DirFile) : Bool :=
  ((filter.agePredicates now).all fun p => file.modified.any p) &&
    filter.entryPredicates.all fun p => (file.entry? codec).any p

end PurgeFilter

/-- What the walk comes upon, in its order. -/
def shardVisits : List (Except String Shard) → List (Except PurgeStop DirFile)
  | [] => []
  | .error e :: shards => .error (.iteratingShards e) :: shardVisits shards
  | .ok shard :: shards =>
    (if !shard.isDir then [] else match shard.files with
      | .error e => [.error (.readingShard e)]
      | .ok files => files.map (·.mapError .iteratingShard)) ++ shardVisits shards

/-- The walk of a store; a store that is not there has nothing in it. -/
def StoreRoot.visits : StoreRoot → List (Except PurgeStop DirFile)
  | .notFound => []
  | .failed e => [.error (.reading e)]
  | .shards entries => shardVisits entries

/-- The entries of a store: its files with the extension of an entry. -/
def StoreRoot.entries (root : StoreRoot) : List DirFile :=
  (root.visits.filterMap Except.toOption).filter DirFile.isJson

end

/-! ### One file -/

section
variable {codec : EntryCodec} {now : ℤ} {filter narrower : PurgeFilter} {older newer : Option ℤ}
  {file : DirFile}

/-- The default filter sets no predicate. -/
theorem selects_of_default (h : filter.isDefault = true) :
    filter.selects codec now file = true := by
  simp only [PurgeFilter.isDefault, Bool.and_eq_true, Option.isNone_iff_eq_none] at h
  obtain ⟨⟨⟨⟨hold, hnew⟩, hreason⟩, hmodel⟩, hkind⟩ := h
  simp [PurgeFilter.selects, PurgeFilter.agePredicates, PurgeFilter.entryPredicates, hold, hnew,
    hreason, hmodel, hkind]

theorem purgeCutoff_eq_some {d : Option ℤ} {cutoff : Option ℤ}
    (h : purgeCutoff now d = some cutoff) : cutoff = d.map (now - ·) := by
  cases d with
  | none => exact (Option.some.inj h).symm
  | some d =>
    rw [purgeCutoff] at h
    split_ifs at h
    exact (Option.some.inj h).symm

theorem matchesAge_eq (modified : Option ℤ) :
    matchesAge (filter.olderThan.map (now - ·)) (filter.newerThan.map (now - ·)) modified =
      (filter.agePredicates now).all fun p => modified.any p := by
  rw [PurgeFilter.agePredicates, List.all_append]
  cases filter.olderThan <;> cases filter.newerThan <;> simp [matchesAge]

theorem matchesEntry_eq (entry : CacheEntry) :
    filter.matchesEntry entry = filter.entryPredicates.all fun p => p entry := by
  rw [PurgeFilter.matchesEntry, PurgeFilter.entryPredicates, List.all_append, List.all_append]
  congr 1
  · congr 1
    · cases filter.emptyReason.isEmpty <;> simp
    · cases filter.model <;> simp
  · cases filter.kind <;> simp

theorem entryPredicates_eq_nil : filter.entryPredicates = [] ↔ filter.isAgeOnly = true := by
  simp [PurgeFilter.entryPredicates, PurgeFilter.isAgeOnly, and_assoc]

/-- **What the walk decides of a file** is what the filter says of it, unless its time cannot be
told. -/
theorem shouldRemove_eq (hold : purgeCutoff now filter.olderThan = some older)
    (hnew : purgeCutoff now filter.newerThan = some newer) :
    shouldRemove codec filter older newer file =
      if filter.isDefault = false ∧ ∃ t, file.modified = some t ∧ ¬InUtc t then none
      else some (filter.selects codec now file) := by
  rw [shouldRemove]
  by_cases hdefault : filter.isDefault = true
  · rw [if_pos hdefault, if_neg (by simp [hdefault]), selects_of_default hdefault]
  rw [if_neg hdefault]
  rw [Bool.not_eq_true] at hdefault
  by_cases hbad : ∃ t, file.modified = some t ∧ ¬InUtc t
  · rw [if_pos (by simpa [Option.any_eq_true] using hbad), if_pos ⟨hdefault, hbad⟩]
  have hknown : ¬(filter.isDefault = false ∧ ∃ t, file.modified = some t ∧ ¬InUtc t) :=
    fun h => hbad h.2
  rw [if_neg (by simpa [Option.any_eq_true] using hbad), if_neg hknown, PurgeFilter.selects,
    ← matchesAge_eq, ← purgeCutoff_eq_some hold, ← purgeCutoff_eq_some hnew]
  cases matchesAge older newer file.modified with
  | false => rfl
  | true =>
    rw [Bool.true_and, if_neg (by simp)]
    by_cases hage : filter.isAgeOnly = true
    · rw [if_pos hage, entryPredicates_eq_nil.mpr hage, List.all_nil]
    rw [if_neg hage, DirFile.entry?]
    have hne : filter.entryPredicates ≠ [] := fun hnil => hage (entryPredicates_eq_nil.mp hnil)
    have hdecided (entry : Option CacheEntry) : (entry.map filter.matchesEntry).getD false =
        filter.entryPredicates.all fun p => entry.any p := by
      cases entry with
      | none =>
        -- nothing satisfies a predicate, and there is one
        obtain ⟨p, hp⟩ := List.exists_mem_of_ne_nil _ hne
        exact (List.all_eq_false.mpr ⟨p, hp, by simp⟩).symm
      | some entry => exact matchesEntry_eq entry
    cases file.body with
    | error e => exact congrArg some (hdecided none)
    | ok bytes => exact congrArg some (hdecided _)

/-- A filter that sets more selects no file that the other does not. -/
theorem selects_of_narrows (h : filter.Narrows narrower)
    (hs : narrower.selects codec now file = true) :
    filter.selects codec now file = true := by
  have hages : filter.agePredicates now ⊆ narrower.agePredicates now := by
    refine List.append_subset.mpr ⟨?_, ?_⟩
    · rcases h.olderThan with hnone | heq
      · simp [hnone]
      · rw [← heq]
        exact List.subset_append_left _ _
    · rcases h.newerThan with hnone | heq
      · simp [hnone]
      · rw [← heq]
        exact List.subset_append_right _ _
  have hentries : filter.entryPredicates ⊆ narrower.entryPredicates := by
    refine List.append_subset.mpr ⟨List.append_subset.mpr ⟨?_, ?_⟩, ?_⟩
    · rcases h.emptyReason with hnil | heq
      · simp [hnil]
      · rw [← heq]
        exact List.subset_append_of_subset_left _ (List.subset_append_left _ _)
    · rcases h.model with hnone | heq
      · simp [hnone]
      · rw [← heq]
        exact List.subset_append_of_subset_left _ (List.subset_append_right _ _)
    · rcases h.kind with hnone | heq
      · simp [hnone]
      · rw [← heq]
        exact List.subset_append_right _ _
  rw [PurgeFilter.selects, Bool.and_eq_true, List.all_eq_true, List.all_eq_true] at hs ⊢
  exact ⟨fun p hp => hs.1 p (hages hp), fun p hp => hs.2 p (hentries hp)⟩

end

/-! ### The walk, flat -/

section
variable (codec : EntryCodec) (filter : PurgeFilter) (older newer : Option ℤ)

/-- The walk over what it comes upon. -/
def purgeVisits : List (Except PurgeStop DirFile) → Purged → PurgeResult
  | [], s => .ok s
  | .error stop :: _, s => .error (s, stop)
  | .ok file :: vs, s => do
    let s ← purgeFile codec filter older newer file s
    purgeVisits vs s

theorem purgeVisits_append (vs ws : List (Except PurgeStop DirFile)) (s : Purged) :
    purgeVisits codec filter older newer (vs ++ ws) s =
      (purgeVisits codec filter older newer vs s).bind
        (purgeVisits codec filter older newer ws) := by
  induction vs generalizing s with
  | nil => rfl
  | cons v vs ih =>
    cases v with
    | error stop => rfl
    | ok file =>
      rw [List.cons_append, purgeVisits, purgeVisits]
      cases purgeFile codec filter older newer file s with
      | error stopped => rfl
      | ok s => exact ih s

theorem purgeFiles_eq (files : List (Except String DirFile)) (s : Purged) :
    purgeFiles codec filter older newer files s =
      purgeVisits codec filter older newer (files.map (·.mapError .iteratingShard)) s := by
  induction files generalizing s with
  | nil => rfl
  | cons file files ih =>
    cases file with
    | error e => rfl
    | ok file =>
      rw [purgeFiles]
      cases hfile : purgeFile codec filter older newer file s with
      | error stopped => simp [purgeVisits, hfile, Except.mapError, bind, Except.bind]
      | ok s' => simpa [purgeVisits, hfile, Except.mapError, bind, Except.bind] using ih s'

/-- **The two loops are one walk** over what they come upon. -/
theorem purgeShards_eq (shards : List (Except String Shard)) (s : Purged) :
    purgeShards codec filter older newer shards s =
      purgeVisits codec filter older newer (shardVisits shards) s := by
  induction shards generalizing s with
  | nil => rfl
  | cons shard shards ih =>
    cases shard with
    | error e => rfl
    | ok shard =>
      rw [purgeShards, shardVisits, purgeVisits_append]
      split_ifs with hdir
      · exact ih s
      · cases hfiles : shard.files with
        | error e => rfl
        | ok files =>
          simp only [purgeFiles_eq]
          cases purgeVisits codec filter older newer (files.map (·.mapError .iteratingShard)) s with
          | error stopped => rfl
          | ok s => exact ih s

end

section
variable {codec : EntryCodec} {now : ℤ} {filter narrower : PurgeFilter} {older newer : Option ℤ}
  {older' newer' : Option ℤ}

/-- **A purge is a walk** when its cutoffs can be represented, and panics before it otherwise. -/
theorem purge_eq (root : StoreRoot) : purge codec now filter root =
    match purgeCutoff now filter.olderThan, purgeCutoff now filter.newerThan with
    | some older, some newer => purgeVisits codec filter older newer root.visits ⟨0, []⟩
    | _, _ => .error (⟨0, []⟩, .panicked) := by
  rw [purge]
  cases purgeCutoff now filter.olderThan with
  | none => rfl
  | some older =>
    cases purgeCutoff now filter.newerThan with
    | none => rfl
    | some newer =>
      cases root with
      | notFound => rfl
      | failed e => rfl
      | shards entries => exact purgeShards_eq codec filter older newer entries _

/-- The time of a file stops the walk: it is no time of `DateTime<Utc>`, and it is asked for. -/
def StopsAt (filter : PurgeFilter) (file : DirFile) : Prop :=
  file.isJson = true ∧ filter.isDefault = false ∧ ∃ t, file.modified = some t ∧ ¬InUtc t

/-- A file goes when it is an entry, is selected and can be removed. -/
def goes (codec : EntryCodec) (now : ℤ) (filter : PurgeFilter) (file : DirFile) : Bool :=
  file.isJson && filter.selects codec now file && file.removable

/-- **One file of the walk.** -/
theorem purgeFile_eq (hold : purgeCutoff now filter.olderThan = some older)
    (hnew : purgeCutoff now filter.newerThan = some newer) (file : DirFile) (s : Purged) :
    (StopsAt filter file → purgeFile codec filter older newer file s = .error (s, .panicked)) ∧
    (¬StopsAt filter file → purgeFile codec filter older newer file s =
      .ok (if goes codec now filter file then ⟨s.removed + 1, s.gone ++ [file]⟩ else s)) := by
  rw [purgeFile, shouldRemove_eq hold hnew, StopsAt, goes]
  cases hjson : file.isJson with
  | false => simp
  | true =>
    simp only [Bool.not_true, Bool.false_eq_true, if_false, true_and, Bool.true_and]
    constructor
    · intro hstop
      rw [if_pos hstop]
    · intro hstop
      rw [if_neg hstop]
      cases filter.selects codec now file with
      | false => rfl
      | true => rw [Purged.remove, Bool.true_and]

/-- The files among what a walk comes upon. -/
def filesOf (vs : List (Except PurgeStop DirFile)) : List DirFile := vs.filterMap Except.toOption

/-- A walk that nothing stops removes, and counts, every file that goes. -/
theorem purgeVisits_ok (hold : purgeCutoff now filter.olderThan = some older)
    (hnew : purgeCutoff now filter.newerThan = some newer) {vs : List (Except PurgeStop DirFile)}
    (h : ∀ v ∈ vs, ∃ file, v = .ok file ∧ ¬StopsAt filter file) (s : Purged) :
    purgeVisits codec filter older newer vs s =
      .ok ⟨s.removed + ((filesOf vs).filter (goes codec now filter)).length,
        s.gone ++ (filesOf vs).filter (goes codec now filter)⟩ := by
  induction vs generalizing s with
  | nil => simp [purgeVisits, filesOf]
  | cons v vs ih =>
    obtain ⟨file, rfl, hfile⟩ := h v List.mem_cons_self
    have hrest := ih fun v hv => h v (List.mem_cons_of_mem _ hv)
    rw [purgeVisits, (purgeFile_eq hold hnew file s).2 hfile]
    have hfiles : filesOf (.ok file :: vs) = file :: filesOf vs := rfl
    rw [hfiles, List.filter_cons]
    split_ifs with hgoes
    · refine (hrest _).trans ?_
      rw [List.length_cons, List.append_assoc, List.singleton_append, Nat.add_right_comm,
        Nat.add_assoc]
    · exact hrest s

/-- A walk that comes upon a failure, or a time it cannot tell, stops. -/
theorem purgeVisits_stops (hold : purgeCutoff now filter.olderThan = some older)
    (hnew : purgeCutoff now filter.newerThan = some newer) {vs : List (Except PurgeStop DirFile)}
    {s s' : Purged} (h : purgeVisits codec filter older newer vs s = .ok s') :
    ∀ v ∈ vs, ∃ file, v = .ok file ∧ ¬StopsAt filter file := by
  induction vs generalizing s with
  | nil => simp
  | cons v vs ih =>
    cases v with
    | error stop => cases h
    | ok file =>
      by_cases hstop : StopsAt filter file
      · rw [purgeVisits, (purgeFile_eq hold hnew file s).1 hstop] at h
        cases h
      · rw [purgeVisits, (purgeFile_eq hold hnew file s).2 hstop] at h
        exact List.forall_mem_cons.mpr ⟨⟨file, rfl, hstop⟩, ih h⟩

/-! ### A filter that sets more -/

theorem isDefault_of_narrows (h : filter.Narrows narrower) (hd : narrower.isDefault = true) :
    filter.isDefault = true := by
  simp only [PurgeFilter.isDefault, Bool.and_eq_true, Option.isNone_iff_eq_none,
    List.isEmpty_iff] at hd ⊢
  obtain ⟨⟨⟨⟨hold, hnew⟩, hreason⟩, hmodel⟩, hkind⟩ := hd
  exact ⟨⟨⟨⟨h.olderThan.elim id fun heq => heq ▸ hold, h.newerThan.elim id fun heq => heq ▸ hnew⟩,
    h.emptyReason.elim id fun heq => heq ▸ hreason⟩, h.model.elim id fun heq => heq ▸ hmodel⟩,
    h.kind.elim id fun heq => heq ▸ hkind⟩

/-- A walk only ever removes more. -/
theorem sublist_purgeVisits (hold : purgeCutoff now filter.olderThan = some older)
    (hnew : purgeCutoff now filter.newerThan = some newer) (vs : List (Except PurgeStop DirFile))
    (s : Purged) : s.gone.Sublist (goneOf (purgeVisits codec filter older newer vs s)) := by
  induction vs generalizing s with
  | nil => exact List.Sublist.refl _
  | cons v vs ih =>
    cases v with
    | error stop => exact List.Sublist.refl _
    | ok file =>
      by_cases hstop : StopsAt filter file
      · rw [purgeVisits, (purgeFile_eq hold hnew file s).1 hstop]
        exact List.Sublist.refl _
      · rw [purgeVisits, (purgeFile_eq hold hnew file s).2 hstop]
        refine List.Sublist.trans ?_ (ih _)
        split_ifs
        · exact List.sublist_append_left _ _
        · exact List.Sublist.refl _

/-- **Two walks over the same files**: the one that selects less has never removed anything that
the other has not, also where one of them stops. -/
theorem purgeVisits_narrows (hn : filter.Narrows narrower)
    (hold : purgeCutoff now filter.olderThan = some older)
    (hnew : purgeCutoff now filter.newerThan = some newer)
    (hold' : purgeCutoff now narrower.olderThan = some older')
    (hnew' : purgeCutoff now narrower.newerThan = some newer')
    (vs : List (Except PurgeStop DirFile)) {s s' : Purged} (hs : s'.gone.Sublist s.gone) :
    (goneOf (purgeVisits codec narrower older' newer' vs s')).Sublist
      (goneOf (purgeVisits codec filter older newer vs s)) := by
  induction vs generalizing s s' with
  | nil => exact hs
  | cons v vs ih =>
    cases v with
    | error stop => exact hs
    | ok file =>
      by_cases hstop' : StopsAt narrower file
      · rw [purgeVisits, (purgeFile_eq hold' hnew' file s').1 hstop']
        exact hs.trans (sublist_purgeVisits hold hnew (.ok file :: vs) s)
      · -- what stops the wider walk stops this one
        have hstop : ¬StopsAt filter file := fun ⟨hjson, hdefault, htime⟩ =>
          hstop' ⟨hjson, Bool.eq_false_iff.mpr fun hd =>
            Bool.eq_false_iff.mp hdefault (isDefault_of_narrows hn hd), htime⟩
        rw [purgeVisits, purgeVisits, (purgeFile_eq hold' hnew' file s').2 hstop',
          (purgeFile_eq hold hnew file s).2 hstop]
        refine ih ?_
        by_cases hgoes' : goes codec now narrower file = true
        · have hgoes : goes codec now filter file = true := by
            simp only [goes, Bool.and_eq_true] at hgoes' ⊢
            exact ⟨⟨hgoes'.1.1, selects_of_narrows hn hgoes'.1.2⟩, hgoes'.2⟩
          rw [if_pos hgoes', if_pos hgoes]
          exact hs.append (List.Sublist.refl _)
        · rw [if_neg hgoes']
          split_ifs
          · exact hs.trans (List.sublist_append_left _ _)
          · exact hs

theorem purgeCutoff_of_narrows {d d' : Option ℤ} (h : d = none ∨ d' = d) {cutoff : Option ℤ}
    (hd' : purgeCutoff now d' = some cutoff) : ∃ c, purgeCutoff now d = some c := by
  rcases h with rfl | rfl
  · exact ⟨none, rfl⟩
  · exact ⟨cutoff, hd'⟩

/-- **A filter that sets more removes no more**, also when the purge fails or panics. -/
theorem purge_narrows (hn : filter.Narrows narrower) (root : StoreRoot) :
    (goneOf (purge codec now narrower root)).Sublist (goneOf (purge codec now filter root)) := by
  rw [purge_eq, purge_eq]
  cases hold' : purgeCutoff now narrower.olderThan with
  | none => exact List.nil_sublist _
  | some older' =>
    cases hnew' : purgeCutoff now narrower.newerThan with
    | none => exact List.nil_sublist _
    | some newer' =>
      obtain ⟨older, hold⟩ := purgeCutoff_of_narrows hn.olderThan hold'
      obtain ⟨newer, hnew⟩ := purgeCutoff_of_narrows hn.newerThan hnew'
      rw [hold, hnew]
      exact purgeVisits_narrows hn hold hnew hold' hnew' _ (List.Sublist.refl _)

end

/-! ### What a purge removes -/

/-- **A purge narrows soundly**: it reports as many entries as it removes, these are the ones
that match every predicate set, all of them for the default filter, and setting more predicates
removes some of them. -/
structure PurgeSound (codec : EntryCodec) (now : ℤ) (filter : PurgeFilter) (root : StoreRoot) :
    Prop where
  counted : ∃ s, purge codec now filter root = .ok s ∧ s.removed = s.gone.length
  exact : goneOf (purge codec now filter root) = root.entries.filter (filter.selects codec now)
  everything : filter.isDefault = true → goneOf (purge codec now filter root) = root.entries
  narrows : ∀ narrower : PurgeFilter, filter.Narrows narrower →
    (goneOf (purge codec now narrower root)).Sublist (goneOf (purge codec now filter root))

/-- Nothing cuts a purge short: the bounds set are times of `DateTime<Utc>`, the store can be
listed, the times of its entries are such times unless the filter is the default one, and what
matches can be removed. -/
structure PurgeCompletes (codec : EntryCodec) (now : ℤ) (filter : PurgeFilter)
    (root : StoreRoot) : Prop where
  olderThan : ∀ d, filter.olderThan = some d → InUtc (now - d)
  newerThan : ∀ d, filter.newerThan = some d → InUtc (now - d)
  listed : ∀ v ∈ root.visits, ∃ file, v = .ok file
  times : filter.isDefault = false →
    ∀ file ∈ root.entries, ∀ t, file.modified = some t → InUtc t
  removable : ∀ file ∈ root.entries, filter.selects codec now file = true →
    file.removable = true

section
variable {codec : EntryCodec} {now : ℤ} {filter : PurgeFilter} {root : StoreRoot}

theorem purgeCutoff_isSome_iff {d : Option ℤ} :
    (∃ cutoff, purgeCutoff now d = some cutoff) ↔ ∀ e, d = some e → InUtc (now - e) := by
  cases d with
  | none => simp [purgeCutoff]
  | some d => by_cases h : InUtc (now - d) <;> simp [purgeCutoff, h]

theorem mem_entries {file : DirFile} :
    file ∈ root.entries ↔ .ok file ∈ root.visits ∧ file.isJson = true := by
  rw [StoreRoot.entries, List.mem_filter, List.mem_filterMap]
  refine and_congr_left' ⟨?_, fun h => ⟨_, h, rfl⟩⟩
  rintro ⟨_ | found, hv, ⟨⟩⟩
  exact hv

/-- Nothing stops the walk. -/
theorem not_stops_iff : (∀ v ∈ root.visits, ∃ file, v = .ok file ∧ ¬StopsAt filter file) ↔
    (∀ v ∈ root.visits, ∃ file, v = .ok file) ∧ (filter.isDefault = false →
      ∀ file ∈ root.entries, ∀ t, file.modified = some t → InUtc t) := by
  constructor
  · intro h
    refine ⟨fun v hv => (h v hv).imp fun file hfile => hfile.1, fun hdefault file hfile t ht => ?_⟩
    obtain ⟨hvisit, hjson⟩ := mem_entries.mp hfile
    obtain ⟨_, ⟨⟩, hstop⟩ := h _ hvisit
    by_contra htime
    exact hstop ⟨hjson, hdefault, t, ht, htime⟩
  · rintro ⟨hlisted, htimes⟩ v hv
    obtain ⟨file, rfl⟩ := hlisted v hv
    refine ⟨file, rfl, fun ⟨hjson, hdefault, t, ht, htime⟩ => htime ?_⟩
    exact htimes hdefault file (mem_entries.mpr ⟨hv, hjson⟩) t ht

theorem filter_goes : (filesOf root.visits).filter (goes codec now filter) =
    root.entries.filter fun file => filter.selects codec now file && file.removable := by
  rw [StoreRoot.entries, List.filter_filter]
  refine List.filter_congr fun file _ => ?_
  rw [goes, Bool.and_comm _ file.isJson, Bool.and_assoc]

/-- **What a purge removes.**  A purge removes exactly the entries that match every predicate
set, and reports how many, exactly when nothing cuts it short. -/
theorem purge_sound_iff (codec : EntryCodec) (now : ℤ) (filter : PurgeFilter) (root : StoreRoot) :
    PurgeSound codec now filter root ↔ PurgeCompletes codec now filter root := by
  constructor
  · rintro ⟨⟨s, hs, -⟩, hexact, -, -⟩
    have hrun := hs
    rw [purge_eq] at hrun
    cases hold : purgeCutoff now filter.olderThan with
    | none => rw [hold] at hrun; cases hrun
    | some older =>
      cases hnew : purgeCutoff now filter.newerThan with
      | none => rw [hold, hnew] at hrun; cases hrun
      | some newer =>
        rw [hold, hnew] at hrun
        have hwalk := purgeVisits_stops hold hnew hrun
        obtain ⟨hlisted, htimes⟩ := not_stops_iff.mp hwalk
        refine ⟨purgeCutoff_isSome_iff.mp ⟨_, hold⟩, purgeCutoff_isSome_iff.mp ⟨_, hnew⟩, hlisted,
          htimes, fun file hfile hselected => ?_⟩
        -- what matches went, so it could be removed
        have hgone : goneOf (purge codec now filter root) =
            root.entries.filter fun file => filter.selects codec now file && file.removable := by
          rw [hs, goneOf, ← filter_goes]
          have heq := (purgeVisits_ok hold hnew hwalk ⟨0, []⟩).symm.trans hrun
          exact (congrArg Purged.gone (Except.ok.inj heq)).symm.trans (List.nil_append _)
        have hmem : file ∈ root.entries.filter (filter.selects codec now) :=
          List.mem_filter.mpr ⟨hfile, hselected⟩
        rw [← hexact, hgone, List.mem_filter, Bool.and_eq_true] at hmem
        exact hmem.2.2
  · rintro ⟨hold, hnew, hlisted, htimes, hremovable⟩
    obtain ⟨older, hold⟩ := purgeCutoff_isSome_iff.mpr hold
    obtain ⟨newer, hnew⟩ := purgeCutoff_isSome_iff.mpr hnew
    have hselected : (filesOf root.visits).filter (goes codec now filter) =
        root.entries.filter (filter.selects codec now) := by
      rw [filter_goes]
      refine List.filter_congr fun file hfile => ?_
      cases hs : filter.selects codec now file with
      | false => rfl
      | true => exact hremovable file hfile hs
    have hrun : purge codec now filter root =
        .ok ⟨(root.entries.filter (filter.selects codec now)).length,
          root.entries.filter (filter.selects codec now)⟩ := by
      rw [purge_eq, hold, hnew]
      refine (purgeVisits_ok hold hnew (not_stops_iff.mpr ⟨hlisted, htimes⟩) _).trans ?_
      rw [hselected, Nat.zero_add, List.nil_append]
    refine ⟨⟨_, hrun, rfl⟩, by rw [hrun, goneOf], fun hdefault => ?_,
      fun narrower hn => purge_narrows hn root⟩
    rw [hrun, goneOf]
    exact List.filter_eq_self.mpr fun file _ => selects_of_default hdefault

end

/-- A codec that reads nothing. -/
def unreadable : EntryCodec := ⟨fun _ => .error "", fun _ => .error ""⟩

/-- A store with one entry from the start of the epoch, whose body no longer parses. -/
def staleStore : StoreRoot :=
  .shards [.ok ⟨true, .ok [.ok ⟨"00.json", some 0, .ok [], true⟩]⟩]

/-- **A bound before the first time is a panic.**  The entry is older than thirty days and newer
than a time that no entry is older than, but nothing is removed. -/
theorem distant_bound_removes_nothing :
    ¬ ∀ (codec : EntryCodec) (now : ℤ) (filter : PurgeFilter) (root : StoreRoot),
      PurgeSound codec now filter root := by
  intro hall
  -- thirty days, and a hundred million of them, in nanoseconds
  have hexact := (hall unreadable (2000000000 * 10 ^ 9)
    { PurgeFilter.empty with
      olderThan := some (30 * 86400 * 10 ^ 9), newerThan := some (100000000 * 86400 * 10 ^ 9) }
    staleStore).exact
  have hlength := congrArg List.length hexact
  revert hlength
  decide +kernel
