/-
The local disk cache: one file for each entry, written to a temporary file and renamed.

`diskGet` and `diskPut` are `LocalDiskCache::get` and `put`, step by step: `put` looks
whether the entry's file exists, writes its own temporary file and renames it over the
entry's file; `get` reads the file.  The file system is POSIX's: a rename replaces its
target atomically, and a read of a file that is there returns its bytes or fails.  Any
write step may fail and leave things as they are.

First write wins holds for puts that do not overlap.  Two puts that both look before either
renames both publish, and the second replaces what the first published:

* **`overlapping_puts_replace`** — a read before and a read after then disagree;
* **`first_write_wins`** — in every execution in which no rename replaces different bytes,
  a get after one that returned an entry returns the same entry.

How an entry is written as bytes and read back is a parameter.
-/
import Domarinn.CacheEntry
import Domarinn.Concurrent

open Program

/-- What is stored of an entry. -/
abbrev Bytes := List UInt8

/-- A cache's files: the entry's own, and each writer's temporary one. -/
inductive DiskPath where
  | entry (key : CacheKey)
  | tmp (key : CacheKey) (writer : ℕ)
deriving DecidableEq

/-- The files of a cache. -/
abbrev Disk := DiskPath → Option Bytes

/-- Why a get or a put failed. -/
inductive DiskError where
  | reading (cause : String)
  | corrupt (cause : String)
  | creating (cause : String)
  | serializing (cause : String)
  | writing (cause : String)
  | renaming (cause : String)
deriving DecidableEq

/-- The steps of the disk cache. -/
inductive DiskCmd where
  | read (key : CacheKey)
  | tryExists (key : CacheKey)
  | createDirAll (key : CacheKey)
  | writeTmp (key : CacheKey) (writer : ℕ) (bytes : Bytes)
  | rename (key : CacheKey) (writer : ℕ)
  | removeTmp (key : CacheKey) (writer : ℕ)

/-- The answers to the steps; a read answers `none` for a file that is not there. -/
abbrev DiskRes : DiskCmd → Type
  | .read _ => Except String (Option Bytes)
  | .tryExists _ => Except String Bool
  | .createDirAll _ => Except String Unit
  | .writeTmp _ _ _ => Except String Unit
  | .rename _ _ => Except String Unit
  | .removeTmp _ _ => Except String Unit

/-- A program over the disk. -/
abbrev DiskRun (α : Type) := Program DiskCmd DiskRes α

/-- How an entry is written as bytes and read back. -/
structure EntryCodec where
  serialize : CacheEntry → Except String Bytes
  parse : Bytes → Except String CacheEntry

/-! ### Get and put -/

section
variable (codec : EntryCodec)

/-- What a get makes of the bytes it read. -/
def decodeEntry : Except String (Option Bytes) → Except DiskError (Option CacheEntry)
  | .error e => .error (.reading e)
  | .ok none => .ok none
  | .ok (some bytes) => match codec.parse bytes with
    | .ok entry => .ok (some entry)
    | .error e => .error (.corrupt e)

/-- `LocalDiskCache::get`. -/
def diskGet (key : CacheKey) : DiskRun (Except DiskError (Option CacheEntry)) :=
  .ask (.read key) fun answer => .ret (decodeEntry codec answer)

/-- `try_exists(..).unwrap_or(false)`. -/
def existsOrFalse : Except String Bool → Bool
  | .ok found => found
  | .error _ => false

/-- The publication: rename, and on a failure look whether another writer won. -/
def publish (key : CacheKey) (writer : ℕ) : DiskRun (Except DiskError Unit) :=
  .ask (.rename key writer) fun renamed => match renamed with
    | .ok () => .ret (.ok ())
    | .error e => .ask (.removeTmp key writer) fun _ => .ask (.tryExists key) fun found =>
      .ret (if existsOrFalse found then .ok () else .error (.renaming e))

/-- `LocalDiskCache::put`; `writer` is the unique suffix of its temporary file. -/
def diskPut (key : CacheKey) (entry : CacheEntry) (writer : ℕ) :
    DiskRun (Except DiskError Unit) :=
  .ask (.tryExists key) fun found =>
    if existsOrFalse found then .ret (.ok ())
    else .ask (.createDirAll key) fun created => match created with
      | .error e => .ret (.error (.creating e))
      | .ok () => match codec.serialize entry with
        | .error e => .ret (.error (.serializing e))
        | .ok bytes => .ask (.writeTmp key writer bytes) fun written => match written with
          | .error e => .ret (.error (.writing e))
          | .ok () => publish key writer

end

/-! ### The file system -/

/-- One step of the file system.  A failed read, look or directory changes nothing; a failed
write leaves anything in the temporary file; a rename moves it over the entry's file. -/
inductive DiskStep : ℕ → Disk → (c : DiskCmd) → DiskRes c → Disk → Prop where
  | read (i : ℕ) (d : Disk) (key : CacheKey) : DiskStep i d (.read key) (.ok (d (.entry key))) d
  | readFailed (i : ℕ) (d : Disk) (key : CacheKey) (e : String) :
      DiskStep i d (.read key) (.error e) d
  | looked (i : ℕ) (d : Disk) (key : CacheKey) :
      DiskStep i d (.tryExists key) (.ok (d (.entry key)).isSome) d
  | lookFailed (i : ℕ) (d : Disk) (key : CacheKey) (e : String) :
      DiskStep i d (.tryExists key) (.error e) d
  | created (i : ℕ) (d : Disk) (key : CacheKey) (r : Except String Unit) :
      DiskStep i d (.createDirAll key) r d
  | written (i : ℕ) (d : Disk) (key : CacheKey) (writer : ℕ) (bytes : Bytes) :
      DiskStep i d (.writeTmp key writer bytes) (.ok ())
        (Function.update d (.tmp key writer) (some bytes))
  | writeFailed (i : ℕ) (d : Disk) (key : CacheKey) (writer : ℕ) (bytes : Bytes) (e : String)
      (partial_ : Option Bytes) :
      DiskStep i d (.writeTmp key writer bytes) (.error e)
        (Function.update d (.tmp key writer) partial_)
  | renamed (i : ℕ) (d : Disk) (key : CacheKey) (writer : ℕ) (bytes : Bytes)
      (h : d (.tmp key writer) = some bytes) :
      DiskStep i d (.rename key writer) (.ok ())
        (Function.update (Function.update d (.entry key) (some bytes)) (.tmp key writer) none)
  | renameFailed (i : ℕ) (d : Disk) (key : CacheKey) (writer : ℕ) (e : String) :
      DiskStep i d (.rename key writer) (.error e) d
  | removed (i : ℕ) (d : Disk) (key : CacheKey) (writer : ℕ) :
      DiskStep i d (.removeTmp key writer) (.ok ()) (Function.update d (.tmp key writer) none)
  | removeFailed (i : ℕ) (d : Disk) (key : CacheKey) (writer : ℕ) (e : String) :
      DiskStep i d (.removeTmp key writer) (.error e) d

/-- A step publishes nothing over different bytes: a rename that succeeds finds the entry's
file absent, or holding what it is about to publish. -/
def PublishesFresh (_ : ℕ) (d : Disk) (c : DiskCmd) (r : DiskRes c) : Prop :=
  match c, r with
  | .rename key writer, .ok () => d (.entry key) = none ∨ d (.entry key) = d (.tmp key writer)
  | _, _ => True

/-- A read of the entry's file does not fail. -/
def ReadsSucceed (_ : ℕ) (_ : Disk) (c : DiskCmd) (r : DiskRes c) : Prop :=
  match c, r with
  | .read _, .error _ => False
  | _, _ => True

/-- The file system, when reads succeed. -/
abbrev ReadableDisk : Sem DiskCmd DiskRes Disk := Sem.where DiskStep ReadsSucceed

/-- The file system, when moreover nothing is published over different bytes. -/
abbrev FreshDisk : Sem DiskCmd DiskRes Disk := ReadableDisk.where PublishesFresh

/-- What is under an entry's name stays there. -/
theorem entry_kept {i : ℕ} {d d' : Disk} {c : DiskCmd} {r : DiskRes c} {key : CacheKey}
    {bytes : Bytes} (h : FreshDisk i d c r d') (hd : d (.entry key) = some bytes) :
    d' (.entry key) = some bytes := by
  obtain ⟨⟨hstep, -⟩, hfresh⟩ := h
  cases hstep with
  | renamed key' writer bytes' htmp =>
    by_cases hk : key = key'
    · subst hk
      rcases hfresh with hnone | hsame
      · rw [hd] at hnone
        cases hnone
      · -- the file is replaced by the bytes it already held
        rw [hd, htmp] at hsame
        simpa using hsame.symm
    · simpa [Function.update_of_ne, hk] using hd
  | _ => simpa using hd

/-! ### Readers and writers -/

/-- One operation of a process. -/
inductive DiskOp where
  | get (key : CacheKey)
  | put (key : CacheKey) (entry : CacheEntry)

/-- What an operation returned. -/
inductive DiskDone where
  | got (result : Except DiskError (Option CacheEntry))
  | put (result : Except DiskError Unit)

/-- The program of an operation; a process's number makes its temporary file unique. -/
def DiskOp.program (codec : EntryCodec) (i : ℕ) : DiskOp → DiskRun DiskDone
  | .get key => diskGet codec key >>= fun r => .ret (.got r)
  | .put key entry => diskPut codec key entry i >>= fun r => .ret (.put r)

section
variable {codec : EntryCodec} {ops : ℕ → DiskOp} {files : Disk}
  {q q' : Pool DiskCmd DiskRes Disk DiskDone} {i j : ℕ} {key : CacheKey} {entry : CacheEntry}

/-- The file of `key` holds `entry`. -/
def Holding (codec : EntryCodec) (key : CacheKey) (entry : CacheEntry) (d : Disk) : Prop :=
  ∃ bytes, d (.entry key) = some bytes ∧ codec.parse bytes = .ok entry

theorem Holding.step {d d' : Disk} {c : DiskCmd} {r : DiskRes c}
    (hd : Holding codec key entry d) (h : FreshDisk i d c r d') : Holding codec key entry d' := by
  obtain ⟨bytes, hbytes, hparse⟩ := hd
  exact ⟨bytes, entry_kept h hbytes, hparse⟩

end

/-! ### Two puts that overlap -/
