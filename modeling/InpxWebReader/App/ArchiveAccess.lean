import InpxWebReader.Foundation.Sha256
import InpxWebReader.Library.Program
import InpxWebReader.Library.Sorting
import InpxWebReader.Scan.Environment

/-!
# Archive manifests

`CZipArchive::ReadManifest` lists the entries of an archive by name and hashes names, sizes and
checksums. What libzip answers is data: for every index a stat, and for an opened entry what each
read gives. Two manifests have one fingerprint exactly if the archives hold the same entries
(`manifestFingerprint_canonical`), whatever the order of the entries and however the sort compares.
-/

namespace InpxWebReader.App

open Foundation Program Scan Sorting

/-! ### Archives -/

/-- What `zip_stat_index` says of an entry: its name up to the terminating zero, its size and the
checksum of its contents. -/
structure ZipStat where
  name : Bytes
  size : Nat
  crc : Nat
  deriving DecidableEq

/-- An opened entry: what the reads give one after another, none where a read fails, whether the
last read finds the end with the right checksum, and whether it can be closed. -/
structure ZipStream where
  reads : List (Option Bytes)
  endsAsDeclared : Bool := true
  closes : Bool := true

structure DirectoryEntry where
  stat : Option ZipStat
  stream : Option ZipStream

/-- An archive as libzip presents it. -/
structure ZipArchive where
  directory : Option (List DirectoryEntry)

/-- The names, sizes and checksums that libzip reports. -/
def ZipArchive.stats (archive : ZipArchive) : List ZipStat :=
  (archive.directory.getD []).filterMap DirectoryEntry.stat

/-! ### The manifest -/

def zipStreamChunkBytes : Nat := 64 * 1024

def manifestSortCheckpointInterval : Nat := 1024

def approximateManifestEntryBytes : Nat := 256

def maxBookPayloadBytes : Nat := 250 * 1024 * 1024

/-- `std::numeric_limits<std::uint64_t>::max()`. -/
def maxUInt64 : Nat := 2 ^ 64 - 1

/-- A `std::runtime_error` with a literal text. -/
def manifestError (text : String) : Exception := .failed (runtimeError text)

/-- `ThrowManifestMemoryBudgetExceeded`. -/
def manifestMemoryBudgetExceeded (maxManifestMemoryBytes : Nat) : Exception :=
  .failed (.standard
    (ascii "INPX archive manifest metadata exceeds the configured memory budget of " ++
      decimal maxManifestMemoryBytes ++ ascii " bytes."))

/-- The failure of an entry that is too large. -/
def payloadTooLarge (size : Nat) : Exception :=
  .failed (.standard (ascii "INPX archive entry payload too large: " ++ decimal size ++
    ascii " bytes exceeds " ++ decimal maxBookPayloadBytes ++ ascii " byte limit."))

section Manifest

variable {σ : Type} (checkpoint : EStateM Exception σ Unit)

def readManifestStat (entry : DirectoryEntry) : EStateM Exception σ ZipStat :=
  match entry.stat with
  | some stat => return stat
  | none => throw (manifestError "Failed to stat INPX archive manifest entry.")

def requestNameBytes (maxManifestMemoryBytes : Nat) :
    List DirectoryEntry → Nat → EStateM Exception σ Nat
  | [], requestedNameBytes => return requestedNameBytes
  | entry :: entries, requestedNameBytes => do
    checkpoint
    let stat ← readManifestStat entry
    require (stat.name.length ≤ maxManifestMemoryBytes / 2 - requestedNameBytes)
      (manifestMemoryBudgetExceeded maxManifestMemoryBytes)
    requestNameBytes maxManifestMemoryBytes entries (requestedNameBytes + stat.name.length)

/-- The loop that reads a payload to its end. -/
def readPayloadChunks : List (Option Bytes) → Nat → Nat → EStateM Exception σ Unit
  | _, _, 0 => return
  | _, 0, _ => throw (manifestError "Failed to validate INPX archive entry payload.")
  | reads, fuel + 1, remainingBytes => do
    checkpoint
    match reads with
    | some bytes :: reads =>
      require (bytes ≠ [] ∧ bytes.length ≤ min zipStreamChunkBytes remainingBytes)
        (manifestError "Failed to validate INPX archive entry payload.")
      readPayloadChunks reads fuel (remainingBytes - bytes.length)
    | _ => throw (manifestError "Failed to validate INPX archive entry payload.")

/-- The part of the loop over the entries that validates a payload. -/
def validatePayload (entry : DirectoryEntry) (stat : ZipStat) (payloadBytesValidated : Nat) :
    EStateM Exception σ Nat := do
  require (stat.size ≤ maxBookPayloadBytes) (payloadTooLarge stat.size)
  require (stat.size ≤ maxUInt64 - payloadBytesValidated)
    (manifestError "INPX archive manifest payload size overflow.")
  match entry.stream with
  | none => throw (manifestError "Failed to open INPX archive entry.")
  | some stream =>
    -- every read takes at least one byte, so the size bounds the loop
    readPayloadChunks checkpoint stream.reads stat.size stat.size
    require (stream.endsAsDeclared = true)
      (manifestError "Failed to validate INPX archive entry payload checksum and size.")
    require (stream.closes = true)
      (manifestError "Failed to close INPX archive entry after reading.")
    return payloadBytesValidated + stat.size

/-- The bytes validated after an entry, where payloads are validated. -/
def payloadBytesAfter (validatePayloads : Bool) (entry : DirectoryEntry) (stat : ZipStat)
    (payloadBytesValidated : Nat) : EStateM Exception σ Nat :=
  if validatePayloads then validatePayload checkpoint entry stat payloadBytesValidated
  else return payloadBytesValidated

def collectEntries (validatePayloads : Bool) :
    List DirectoryEntry → List ZipStat → Nat → EStateM Exception σ (List ZipStat × Nat)
  | [], entries, payloadBytesValidated => return (entries, payloadBytesValidated)
  | entry :: rest, entries, payloadBytesValidated => do
    checkpoint
    let stat ← readManifestStat entry
    let payloadBytesValidated ←
      payloadBytesAfter checkpoint validatePayloads entry stat payloadBytesValidated
    collectEntries validatePayloads rest (entries ++ [stat]) payloadBytesValidated

def runCheckpoints : Nat → EStateM Exception σ Unit
  | 0 => return
  | n + 1 => do
    checkpoint
    runCheckpoints n

def compareNames (left right : ZipStat) : Ordering := compare left.name right.name

/-- The loop that looks for two entries of one name next to each other. -/
def rejectDuplicateNames : List ZipStat → EStateM Exception σ Unit
  | entry :: next :: entries => do
    checkpoint
    require (entry.name ≠ next.name)
      (manifestError "INPX archive contains duplicate entry names.")
    rejectDuplicateNames (next :: entries)
  | _ => return

def manifestLine (entry : ZipStat) : Bytes :=
  decimal entry.name.length ++ asciiByte ':' :: (entry.name ++ asciiByte ':' ::
    (decimal entry.size ++ asciiByte ':' :: (decimal entry.crc ++ [asciiByte '\n'])))

def manifestText (entries : List ZipStat) : Bytes := entries.flatMap manifestLine

def ZipArchive.hashedText (archive : ZipArchive) : Bytes :=
  manifestText (orderBy compareNames archive.stats)

/-- `CZipArchive::ReadManifest`, where sorting the entries takes `comparisons` comparisons. -/
def readManifest (sha : Sha256) (comparisons : Nat) (validatePayloads : Bool)
    (maxManifestMemoryBytes : Nat) (archive : ZipArchive) :
    EStateM Exception σ ArchiveManifest := do
  checkpoint
  match archive.directory with
  | none => throw (manifestError "Failed to read INPX archive entry count.")
  | some directory =>
    require (directory.length ≤ maxManifestMemoryBytes / 2 / approximateManifestEntryBytes ∧
      directory.length ≤ maxUInt64) (manifestMemoryBudgetExceeded maxManifestMemoryBytes)
    let requestedNameBytes ← requestNameBytes checkpoint maxManifestMemoryBytes directory 0
    checkpoint
    require (requestedNameBytes ≤ maxUInt64) (manifestMemoryBudgetExceeded maxManifestMemoryBytes)
    let (entries, payloadBytesValidated) ←
      collectEntries checkpoint validatePayloads directory [] 0
    checkpoint
    runCheckpoints checkpoint
      ((comparisons + manifestSortCheckpointInterval - 1) / manifestSortCheckpointInterval)
    let entries := orderBy compareNames entries
    checkpoint
    rejectDuplicateNames checkpoint entries
    checkpoint
    runCheckpoints checkpoint entries.length
    checkpoint
    return { fingerprint := sha.computeBytes (manifestText entries)
             payloadBytesValidated := payloadBytesValidated }

end Manifest

/-! ### What is hashed can be read back -/

theorem newline_notMem_decimal (n : Nat) : asciiByte '\n' ∉ decimal n := by
  intro h
  have hlow := (mem_decimal_bounds h).1
  have hnewline : (asciiByte '\n').toNat = 10 := rfl
  omega

/-- The line of an entry ends where its length says, whatever its name contains. -/
theorem manifestLine_append_inj {entry entry' : ZipStat} {rest rest' : Bytes}
    (h : manifestLine entry ++ rest = manifestLine entry' ++ rest') :
    entry = entry' ∧ rest = rest' := by
  obtain ⟨name, size, crc⟩ := entry
  obtain ⟨name', size', crc'⟩ := entry'
  simp only [manifestLine, List.append_assoc, List.cons_append, List.nil_append] at h
  obtain ⟨hlength, hnamed⟩ :=
    append_separator_inj (colon_notMem_decimal _) (colon_notMem_decimal _) h
  obtain ⟨hname, hnumbers⟩ := List.append_inj hnamed (decimal_inj hlength)
  obtain ⟨hsize, hend⟩ := append_separator_inj (colon_notMem_decimal _) (colon_notMem_decimal _)
    (List.cons.inj hnumbers).2
  obtain ⟨hcrc, hrest⟩ :=
    append_separator_inj (newline_notMem_decimal _) (newline_notMem_decimal _) hend
  rw [hname, decimal_inj hsize, decimal_inj hcrc]
  exact ⟨rfl, hrest⟩

theorem manifestLine_ne_nil (entry : ZipStat) : manifestLine entry ≠ [] := by
  rw [manifestLine]
  exact fun h => decimal_ne_nil _ (List.append_eq_nil_iff.mp h).1

theorem manifestText_inj : ∀ {entries entries' : List ZipStat},
    manifestText entries = manifestText entries' → entries = entries'
  | [], [], _ => rfl
  | [], entry :: _, h => by
    rw [manifestText, manifestText, List.flatMap_cons] at h
    exact absurd (List.append_eq_nil_iff.mp h.symm).1 (manifestLine_ne_nil entry)
  | entry :: _, [], h => by
    rw [manifestText, manifestText, List.flatMap_cons] at h
    exact absurd (List.append_eq_nil_iff.mp h).1 (manifestLine_ne_nil entry)
  | entry :: entries, entry' :: entries', h => by
    rw [manifestText, manifestText, List.flatMap_cons, List.flatMap_cons] at h
    obtain ⟨hentry, hrest⟩ := manifestLine_append_inj h
    rw [hentry, manifestText_inj hrest]

/-! ### Sorted names -/

instance : Std.TransCmp compareNames where
  eq_swap := fun {left right} => @Std.OrientedCmp.eq_swap Bytes compare _ left.name right.name
  isLE_trans := fun {_ _ _} => @Std.TransCmp.isLE_trans Bytes compare _ _ _ _

theorem compareNames_eq_iff {left right : ZipStat} :
    compareNames left right = .eq ↔ left.name = right.name :=
  Std.compare_eq_iff_eq

/-- In a sorted list without equal neighbours there are no equal names. -/
theorem names_nodup {entries : List ZipStat}
    (hsorted : entries.Pairwise fun a b => (compareNames a b).isLE = true)
    (hneighbours : entries.IsChain fun a b => a.name ≠ b.name) :
    (entries.map ZipStat.name).Nodup := by
  induction entries with
  | nil => exact List.nodup_nil
  | cons a rest ih =>
    rw [List.pairwise_cons] at hsorted
    rw [List.map_cons, List.nodup_cons]
    refine ⟨fun hmem => ?_, ih hsorted.2 hneighbours.tail⟩
    obtain ⟨b, hb, hname⟩ := List.mem_map.mp hmem
    cases rest with
    | nil => cases hb
    | cons c rest =>
      -- the neighbour is between two equal names
      have hac := hsorted.1 c List.mem_cons_self
      have hca : (compareNames c a).isLE = true := by
        have hcb : (compareNames c b).isLE = true := by
          rcases List.mem_cons.mp hb with rfl | hb
          · rw [compareNames_eq_iff.mpr rfl]
            rfl
          · exact (List.pairwise_cons.mp hsorted.2).1 b hb
        rwa [compareNames, hname] at hcb
      have heq := Std.OrientedCmp.isLE_antisymm hac hca
      exact (List.isChain_cons_cons.mp hneighbours).1 (compareNames_eq_iff.mp heq)

/-! ### What is accepted -/

section Accepted

variable {σ : Type} {checkpoint : EStateM Exception σ Unit}

/-- The program answers only what is in `R`. -/
abbrev Returns {α : Type} (c : EStateM Exception σ α) (R : α → Prop) : Prop :=
  Triple (fun _ => True) c (fun a _ => R a) Anything

theorem Returns.seq {α β : Type} {c : EStateM Exception σ β} {f : β → EStateM Exception σ α}
    {R : α → Prop} (hf : ∀ b, Returns (f b) R) : Returns (c >>= f) R := by
  refine Triple.bind (M := fun _ _ => True) ?_ hf
  intro s _
  cases c s <;> trivial

theorem Returns.bind {α β : Type} {c : EStateM Exception σ β} {f : β → EStateM Exception σ α}
    {M : β → Prop} {R : α → Prop} (hc : Returns c M) (hf : ∀ b, M b → Returns (f b) R) :
    Returns (c >>= f) R := by
  refine Triple.bind (M := fun b _ => M b ∧ True) (hc.post fun _ _ hb => ⟨hb, trivial⟩) fun b => ?_
  exact Triple.of_pure fun hb => hf b hb

theorem readManifestStat_returns (entry : DirectoryEntry) :
    Returns (readManifestStat entry : EStateM Exception σ ZipStat)
      fun stat => entry.stat = some stat := by
  rw [readManifestStat]
  split
  · rename_i stat h
    exact Triple.pure fun _ _ => h
  · exact Triple.throw fun _ _ => trivial

theorem collectEntries_returns (validatePayloads : Bool) {directory : List DirectoryEntry}
    {entries : List ZipStat} {payloadBytesValidated : Nat} :
    Returns (collectEntries checkpoint validatePayloads directory entries payloadBytesValidated)
      fun result => ∃ stats, directory.map DirectoryEntry.stat = stats.map some ∧
        result.1 = entries ++ stats := by
  induction directory generalizing entries payloadBytesValidated with
  | nil => exact Triple.pure fun _ _ => ⟨[], rfl, (List.append_nil _).symm⟩
  | cons entry rest ih =>
    rw [collectEntries]
    refine .seq fun _ => (readManifestStat_returns entry).bind fun stat hstat => .seq fun bytes => ?_
    refine ih.post fun result _ hresult => ?_
    obtain ⟨stats, hstats, hentries⟩ := hresult
    refine ⟨stat :: stats, ?_, ?_⟩
    · rw [List.map_cons, List.map_cons, hstat, hstats]
    · rw [hentries, List.append_assoc, List.singleton_append]

theorem rejectDuplicateNames_returns (entries : List ZipStat) :
    Returns (rejectDuplicateNames checkpoint entries)
      fun _ => entries.IsChain fun a b => a.name ≠ b.name := by
  induction entries with
  | nil => exact Triple.pure fun _ _ => .nil
  | cons entry entries ih =>
    cases entries with
    | nil => exact Triple.pure fun _ _ => .singleton entry
    | cons next entries =>
      rw [rejectDuplicateNames]
      refine .seq fun _ => ?_
      refine Returns.bind (M := fun _ => entry.name ≠ next.name)
        (Triple.require (fun _ _ hne => hne) fun _ _ _ => trivial) fun _ hne => ?_
      exact ih.post fun _ _ hchain => .cons_cons hne hchain

/-- What is accepted has a name for each of its entries, and its fingerprint is the hash of the
sorted list. -/
theorem readManifest_returns (sha : Sha256) (comparisons : Nat) (validatePayloads : Bool)
    (maxManifestMemoryBytes : Nat) (archive : ZipArchive) :
    Returns (readManifest checkpoint sha comparisons validatePayloads maxManifestMemoryBytes archive)
      fun manifest => (archive.stats.map ZipStat.name).Nodup ∧
        manifest.fingerprint = sha.computeBytes archive.hashedText := by
  rw [readManifest]
  refine .seq fun _ => ?_
  split
  · exact Triple.throw fun _ _ => trivial
  · rename_i directory hdirectory
    refine .seq fun _ => .seq fun _ => .seq fun _ => .seq fun _ => ?_
    refine (collectEntries_returns validatePayloads).bind fun collected hcollected => ?_
    obtain ⟨entries, payloadBytesValidated⟩ := collected
    obtain ⟨stats, hstats, hentries⟩ := hcollected
    dsimp only at hentries
    rw [List.nil_append] at hentries
    subst hentries
    have hall : archive.stats = entries := by
      have hmap : directory.filterMap DirectoryEntry.stat =
          (directory.map DirectoryEntry.stat).filterMap id := by
        rw [List.filterMap_map]
        rfl
      rw [ZipArchive.stats, hdirectory, Option.getD_some, hmap, hstats, List.filterMap_map]
      exact List.filterMap_some
    refine .seq fun _ => .seq fun _ => .seq fun _ => ?_
    refine (rejectDuplicateNames_returns _).bind fun _ hchain => ?_
    refine .seq fun _ => .seq fun _ => .seq fun _ => Triple.pure fun _ _ => ?_
    rw [ZipArchive.hashedText, hall]
    have hnodup := names_nodup (pairwise_orderBy entries) hchain
    exact ⟨((orderBy_perm compareNames entries).map ZipStat.name).nodup_iff.mp hnodup, rfl⟩

/-- A manifest without equal names is sorted in one way. -/
theorem orderBy_eq_of_mem_iff {stats stats' : List ZipStat} (h : (stats.map ZipStat.name).Nodup)
    (h' : (stats'.map ZipStat.name).Nodup) (hmem : ∀ stat, stat ∈ stats ↔ stat ∈ stats') :
    orderBy compareNames stats = orderBy compareNames stats' := by
  have hperm : stats.Perm stats' := (List.perm_ext_iff_of_nodup h.of_map h'.of_map).mpr hmem
  refine orderBy_unique ((orderBy_perm compareNames stats).trans hperm) (pairwise_orderBy stats) ?_
  intro a ha b hb heq
  exact List.inj_on_of_nodup_map h' ha hb (compareNames_eq_iff.mp heq)

end Accepted

/-! ### What a reading keeps -/

section Keeps

variable {σ : Type} {checkpoint : EStateM Exception σ Unit} {I : σ → Prop} {E : Exception → σ → Prop}

/-- What the checkpoint keeps is kept by the loop over the names. -/
theorem requestNameBytes_keeps (hcheck : Triple I checkpoint (fun _ => I) E)
    (hfail : ∀ failure s, I s → E (.failed failure) s) (maxManifestMemoryBytes : Nat)
    (directory : List DirectoryEntry) (requestedNameBytes : Nat) :
    Triple I (requestNameBytes checkpoint maxManifestMemoryBytes directory requestedNameBytes)
      (fun _ => I) E := by
  induction directory generalizing requestedNameBytes with
  | nil => exact .pure fun _ hs => hs
  | cons entry directory ih =>
    rw [requestNameBytes]
    refine hcheck.bind fun _ => ?_
    refine Triple.bind (M := fun _ => I) ?_ fun stat => ?_
    · rw [readManifestStat]
      split
      · exact .pure fun _ hs => hs
      · exact .throw fun s hs => hfail _ s hs
    · refine Triple.bind (M := fun _ => I) ?_ fun _ => ih _
      exact .require (fun _ hs _ => hs) fun s hs _ => hfail _ s hs

theorem readPayloadChunks_keeps (hcheck : Triple I checkpoint (fun _ => I) E)
    (hfail : ∀ failure s, I s → E (.failed failure) s) (reads : List (Option Bytes))
    (fuel remainingBytes : Nat) :
    Triple I (readPayloadChunks checkpoint reads fuel remainingBytes) (fun _ => I) E := by
  induction fuel generalizing reads remainingBytes with
  | zero =>
    rw [readPayloadChunks.eq_def]
    split
    · exact .pure fun _ hs => hs
    · exact .throw fun s hs => hfail _ s hs
    · contradiction
  | succ fuel ih =>
    rw [readPayloadChunks.eq_def]
    split
    · exact .pure fun _ hs => hs
    · contradiction
    · rename_i left heq _
      injection heq with heq
      subst heq
      refine hcheck.bind fun _ => ?_
      split
      · refine Triple.bind (M := fun _ => I) ?_ fun _ => ih _ _
        exact .require (fun _ hs _ => hs) fun s hs _ => hfail _ s hs
      · exact .throw fun s hs => hfail _ s hs

theorem validatePayload_keeps (hcheck : Triple I checkpoint (fun _ => I) E)
    (hfail : ∀ failure s, I s → E (.failed failure) s) (entry : DirectoryEntry) (stat : ZipStat)
    (payloadBytesValidated : Nat) :
    Triple I (validatePayload checkpoint entry stat payloadBytesValidated) (fun _ => I) E := by
  have hrequire : ∀ (p : Prop) [Decidable p] (failure : Failure),
      Triple I (require p (.failed failure) : EStateM Exception σ Unit) (fun _ => I) E :=
    fun _ _ failure => .require (fun _ hs _ => hs) fun s hs _ => hfail failure s hs
  rw [validatePayload]
  refine (hrequire _ _).bind fun _ => (hrequire _ _).bind fun _ => ?_
  split
  · exact .throw fun s hs => hfail _ s hs
  · refine (readPayloadChunks_keeps hcheck hfail _ _ _).bind fun _ => ?_
    refine (hrequire _ _).bind fun _ => (hrequire _ _).bind fun _ => ?_
    exact .pure fun _ hs => hs

theorem collectEntries_keeps (hcheck : Triple I checkpoint (fun _ => I) E)
    (hfail : ∀ failure s, I s → E (.failed failure) s) (validatePayloads : Bool)
    (directory : List DirectoryEntry) (entries : List ZipStat) (payloadBytesValidated : Nat) :
    Triple I (collectEntries checkpoint validatePayloads directory entries payloadBytesValidated)
      (fun _ => I) E := by
  induction directory generalizing entries payloadBytesValidated with
  | nil => exact .pure fun _ hs => hs
  | cons entry directory ih =>
    rw [collectEntries]
    refine hcheck.bind fun _ => ?_
    refine Triple.bind (M := fun _ => I) ?_ fun stat => ?_
    · rw [readManifestStat]
      split
      · exact .pure fun _ hs => hs
      · exact .throw fun s hs => hfail _ s hs
    · refine Triple.bind (M := fun _ => I) ?_ fun _ => ih _ _
      rw [payloadBytesAfter]
      exact .ite (fun _ => validatePayload_keeps hcheck hfail _ _ _) fun _ => .pure fun _ hs => hs

theorem runCheckpoints_keeps (hcheck : Triple I checkpoint (fun _ => I) E) (n : Nat) :
    Triple I (runCheckpoints checkpoint n) (fun _ => I) E := by
  induction n with
  | zero => exact .pure fun _ hs => hs
  | succ n ih =>
    rw [runCheckpoints]
    exact hcheck.bind fun _ => ih

theorem rejectDuplicateNames_keeps (hcheck : Triple I checkpoint (fun _ => I) E)
    (hfail : ∀ failure s, I s → E (.failed failure) s) (entries : List ZipStat) :
    Triple I (rejectDuplicateNames checkpoint entries) (fun _ => I) E := by
  induction entries with
  | nil => exact .pure fun _ hs => hs
  | cons entry entries ih =>
    cases entries with
    | nil => exact .pure fun _ hs => hs
    | cons next entries =>
      rw [rejectDuplicateNames]
      refine hcheck.bind fun _ => Triple.bind (M := fun _ => I) ?_ fun _ => ih
      exact .require (fun _ hs _ => hs) fun s hs _ => hfail _ s hs

/-- Reading a manifest does to the state what its checkpoints do. -/
theorem readManifest_keeps (hcheck : Triple I checkpoint (fun _ => I) E)
    (hfail : ∀ failure s, I s → E (.failed failure) s) (sha : Sha256) (comparisons : Nat)
    (validatePayloads : Bool) (maxManifestMemoryBytes : Nat) (archive : ZipArchive) :
    Triple I (readManifest checkpoint sha comparisons validatePayloads maxManifestMemoryBytes archive)
      (fun _ => I) E := by
  have hrequire : ∀ (p : Prop) [Decidable p] (failure : Failure),
      Triple I (require p (.failed failure) : EStateM Exception σ Unit) (fun _ => I) E :=
    fun _ _ failure => .require (fun _ hs _ => hs) fun s hs _ => hfail failure s hs
  rw [readManifest]
  refine hcheck.bind fun _ => ?_
  split
  · exact .throw fun s hs => hfail _ s hs
  · refine (hrequire _ _).bind fun _ => ?_
    refine (requestNameBytes_keeps hcheck hfail _ _ _).bind fun _ => hcheck.bind fun _ => ?_
    refine (hrequire _ _).bind fun _ => ?_
    refine (collectEntries_keeps hcheck hfail _ _ _ _).bind fun _ => hcheck.bind fun _ => ?_
    refine (runCheckpoints_keeps hcheck _).bind fun _ => hcheck.bind fun _ => ?_
    refine (rejectDuplicateNames_keeps hcheck hfail _).bind fun _ => hcheck.bind fun _ => ?_
    refine (runCheckpoints_keeps hcheck _).bind fun _ => hcheck.bind fun _ => ?_
    exact .pure fun _ hs => hs

end Keeps

/-- Fingerprints of accepted manifests are equal exactly if the archives hold the same entries, and
no accepted archive has two entries of one name. -/
theorem manifestFingerprint_canonical {σ : Type} {checkpoint checkpoint' : EStateM Exception σ Unit}
    {sha : Sha256} {comparisons comparisons' budget budget' : Nat}
    {validatePayloads validatePayloads' : Bool} {archive archive' : ZipArchive}
    {manifest manifest' : ArchiveManifest} {s t s' t' : σ}
    (hfree : sha.CollisionFree {archive.hashedText, archive'.hashedText})
    (h : readManifest checkpoint sha comparisons validatePayloads budget archive s =
      .ok manifest t)
    (h' : readManifest checkpoint' sha comparisons' validatePayloads' budget' archive' s' =
      .ok manifest' t') :
    (manifest.fingerprint = manifest'.fingerprint ↔
      ∀ stat, stat ∈ archive.stats ↔ stat ∈ archive'.stats) ∧
    (archive.stats.map ZipStat.name).Nodup := by
  obtain ⟨hnames, hfingerprint⟩ := (readManifest_returns sha comparisons validatePayloads budget
    archive).ok trivial h
  obtain ⟨hnames', hfingerprint'⟩ := (readManifest_returns sha comparisons' validatePayloads'
    budget' archive').ok trivial h'
  refine ⟨⟨fun heq stat => ?_, fun hmem => ?_⟩, hnames⟩
  · rw [hfingerprint, hfingerprint'] at heq
    have htext := hfree _ (Set.mem_insert _ _) _ (Set.mem_insert_of_mem _ rfl)
      (Sha256.digest_eq_of_computeBytes_eq heq)
    have hsorted := manifestText_inj htext
    exact (mem_orderBy.symm.trans (by rw [hsorted])).trans mem_orderBy
  · rw [hfingerprint, hfingerprint', ZipArchive.hashedText, ZipArchive.hashedText,
      orderBy_eq_of_mem_iff hnames hnames' hmem]

def twoBooks : List DirectoryEntry :=
  [{ stat := some ⟨ascii "b.fb2", 3, 7⟩
     stream := some { reads := [some (ascii "bcd")] } },
    { stat := some ⟨ascii "a.fb2", 2, 5⟩
      stream := some { reads := [some (ascii "a"), some (ascii "b")] } }]

def twoBooksArchive : ZipArchive := ⟨some twoBooks⟩

/-- The same books in the other order. -/
def reversedArchive : ZipArchive := ⟨some twoBooks.reverse⟩

/-- SHA-256 on the text of the two books. -/
def twoBooksSha : Sha256 where
  digest := fun _ => [206, 250, 242, 7, 145, 189, 200, 22, 96, 15, 96, 124, 19, 27, 200, 252, 240,
    131, 102, 23, 45, 154, 109, 245, 46, 74, 49, 34, 58, 50, 176, 19]
  length_digest := fun _ => rfl

/-- The manifest is read with the payloads in one order and without them in the other, under two
budgets. -/
theorem manifestFingerprint_canonical_twoBooks :
    ∃ manifest manifest',
      readManifest (pure () : EStateM Exception Unit Unit) twoBooksSha 1 true 2048
        twoBooksArchive () = .ok manifest () ∧
      readManifest (pure () : EStateM Exception Unit Unit) twoBooksSha 3 false 1024
        reversedArchive () = .ok manifest' () ∧
      manifest.fingerprint = manifest'.fingerprint := by
  have htext : reversedArchive.hashedText = twoBooksArchive.hashedText := by decide +kernel
  have hfree : twoBooksSha.CollisionFree
      {twoBooksArchive.hashedText, reversedArchive.hashedText} := by
    rw [htext, Set.pair_eq_singleton]
    rintro _ rfl _ rfl _
    rfl
  have hread : readManifest (pure () : EStateM Exception Unit Unit) twoBooksSha 1 true 2048
      twoBooksArchive () =
        .ok ⟨twoBooksSha.computeBytes twoBooksArchive.hashedText, 5⟩ () := rfl
  have hread' : readManifest (pure () : EStateM Exception Unit Unit) twoBooksSha 3 false 1024
      reversedArchive () =
        .ok ⟨twoBooksSha.computeBytes reversedArchive.hashedText, 0⟩ () := rfl
  have hstats : reversedArchive.stats.Perm twoBooksArchive.stats := by decide +kernel
  refine ⟨_, _, hread, hread', ?_⟩
  exact (manifestFingerprint_canonical hfree hread hread').1.mpr fun _ => hstats.mem_iff.symm

end InpxWebReader.App
