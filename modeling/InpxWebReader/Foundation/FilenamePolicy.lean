import InpxWebReader.Foundation.TruncatedUtf8

/-!
# Names of downloaded files

A title becomes the name of a file: without the characters a file system refuses, without trailing
spaces, and within a limit of bytes that may fall into the middle of a character.
-/

namespace InpxWebReader.Foundation

open Unicode

/-- The bytes that `SanitizeDownloadFilenameBaseUtf8` replaces. -/
def isForbiddenFilenameByte (b : UInt8) : Bool :=
  (ascii "\\/:*?\"<>|").contains b || b < 0x20

/-- The byte in the place of a forbidden one. -/
def replaceForbiddenByte (b : UInt8) : UInt8 :=
  if isForbiddenFilenameByte b then asciiByte '_' else b

def trimTrailingFilenameWhitespace (valueUtf8 : Bytes) : Bytes :=
  valueUtf8.rdropWhile fun b => b = asciiByte ' '

/-- The name within the limit, where there is one. -/
def limitFilenameBytes (valueUtf8 : Bytes) (maxBaseNameBytes : Nat) : Bytes :=
  if 0 < maxBaseNameBytes ∧ maxBaseNameBytes < valueUtf8.length then
    trimTrailingFilenameWhitespace (withoutIncompleteUtf8 (valueUtf8.take maxBaseNameBytes))
  else valueUtf8

def sanitizeDownloadFilenameBaseUtf8 (valueUtf8 : Bytes) (maxBaseNameBytes : Nat)
    (fallbackUtf8 : Bytes) : Bytes :=
  let valueUtf8 := trimTrailingFilenameWhitespace (valueUtf8.map replaceForbiddenByte)
  if valueUtf8 = [] then fallbackUtf8
  else
    let valueUtf8 := limitFilenameBytes valueUtf8 maxBaseNameBytes
    if valueUtf8 = [] then fallbackUtf8 else valueUtf8

/-- The bytes of a name that may stand in a file system. -/
structure CleanFilename (name : Bytes) : Prop where
  valid : ValidUtf8 name
  allowed : ∀ b ∈ name, isForbiddenFilenameByte b = false
  noTrailingSpace : name.getLast? ≠ some (asciiByte ' ')

/-- A name that may be given to a download. -/
structure DownloadBaseName (maxBaseNameBytes : Nat) (name : Bytes) : Prop
    extends CleanFilename name where
  ne_nil : name ≠ []
  length_le : name.length ≤ maxBaseNameBytes

/-! ### Replacing and trimming -/

theorem replaceForbiddenByte_allowed (b : UInt8) :
    isForbiddenFilenameByte (replaceForbiddenByte b) = false := by
  rw [replaceForbiddenByte]
  split
  · decide
  · rename_i h
    rwa [Bool.not_eq_true] at h

theorem ascii_of_isForbiddenFilenameByte {b : UInt8} (h : isForbiddenFilenameByte b = true) :
    b < 0x80 := by
  rw [isForbiddenFilenameByte, Bool.or_eq_true, decide_eq_true_eq] at h
  rcases h with hlisted | hcontrol
  · have hall : ∀ c ∈ ascii "\\/:*?\"<>|", c < 0x80 :=
      List.all_iff_forall_prop.mp (by decide)
    exact hall b (List.contains_iff_mem.mp hlisted)
  · exact UInt8.lt_trans hcontrol (by decide)

theorem map_replaceForbiddenByte_valid {value : Bytes} (h : ValidUtf8 value) :
    ValidUtf8 (value.map replaceForbiddenByte) := by
  refine (ValidUtf8.map_ascii (fun b hb => ?_) fun b hb => ?_).mpr h
  · rw [replaceForbiddenByte]
    split
    · decide
    · exact hb
  · rw [replaceForbiddenByte, if_neg fun hforbidden =>
      hb (ascii_of_isForbiddenFilenameByte hforbidden)]

theorem trimTrailingFilenameWhitespace_isPrefix (value : Bytes) :
    trimTrailingFilenameWhitespace value <+: value :=
  List.rdropWhile_prefix _ _

theorem trimTrailingFilenameWhitespace_clean {value : Bytes} (hvalid : ValidUtf8 value)
    (hallowed : ∀ b ∈ value, isForbiddenFilenameByte b = false) :
    CleanFilename (trimTrailingFilenameWhitespace value) where
  valid := by
    refine (ValidUtf8.rdropWhile_ascii (fun b hb => ?_) value).mpr hvalid
    rw [of_decide_eq_true hb]
    decide
  allowed := fun b hb => hallowed b ((trimTrailingFilenameWhitespace_isPrefix value).subset hb)
  noTrailingSpace := by
    intro hlast
    obtain ⟨hne, hspace⟩ := List.mem_getLast?_eq_getLast (Option.mem_def.mpr hlast)
    have hnot := List.rdropWhile_last_not (fun b => decide (b = asciiByte ' ')) value hne
    exact hnot (decide_eq_true hspace.symm)

/-! ### The limit -/

theorem limitFilenameBytes_clean {value : Bytes} (h : CleanFilename value) (n : Nat) :
    CleanFilename (limitFilenameBytes value n) := by
  rw [limitFilenameBytes]
  split
  · refine trimTrailingFilenameWhitespace_clean
      (h.valid.cutText_take n).withoutIncompleteUtf8_valid fun b hb => ?_
    exact h.allowed b (List.take_subset n value ((withoutIncompleteUtf8_isPrefix _).subset hb))
  · exact h

theorem length_limitFilenameBytes_le {value : Bytes} {n : Nat} (hn : 0 < n) :
    (limitFilenameBytes value n).length ≤ n := by
  rw [limitFilenameBytes]
  split
  · have htrim := (trimTrailingFilenameWhitespace_isPrefix
      (withoutIncompleteUtf8 (value.take n))).length_le
    have hcomplete := (withoutIncompleteUtf8_isPrefix (value.take n)).length_le
    rw [List.length_take] at hcomplete
    omega
  · omega

/-- Every title has a name, where the fallback is one. -/
theorem sanitizeDownloadFilenameBaseUtf8_spec {value fallback : Bytes} {n : Nat}
    (hvalue : ValidUtf8 value) (hn : 0 < n) (hfallback : DownloadBaseName n fallback) :
    DownloadBaseName n (sanitizeDownloadFilenameBaseUtf8 value n fallback) := by
  have hclean := trimTrailingFilenameWhitespace_clean (map_replaceForbiddenByte_valid hvalue)
    fun b hb => by
      obtain ⟨c, -, rfl⟩ := List.mem_map.mp hb
      exact replaceForbiddenByte_allowed c
  rw [sanitizeDownloadFilenameBaseUtf8]
  dsimp only
  split
  · exact hfallback
  split
  · exact hfallback
  · rename_i hne
    exact ⟨limitFilenameBytes_clean hclean n, hne, length_limitFilenameBytes_le hn⟩

end InpxWebReader.Foundation
