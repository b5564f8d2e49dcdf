import TypePython.Lib.CheckedRuns

/-!
# The end of a zip archive

Before an archive is opened its end record is searched for from behind and the place and size of the
central directory are read from it, or from the zip64 record that it stands for.

* `zipDirectoryInfo_safe`: whatever the bytes are, no sum overflows and no buffer is left, and what is
  reported is in the archive.
-/

namespace TypePython.Archive

open TypePython.Lib

/-- The bytes of an archive, as many as a file can have. -/
structure ArchiveFile where
  bytes : List UInt8
  fits : bytes.length < 2 ^ 64

structure ZipDirectoryInfo where
  members : Nat
  bytes : Nat
deriving DecidableEq, Repr

abbrev ZipRun (α : Type) := Checked String α

def EOCD_BYTES : Nat := 22

def MAX_COMMENT_BYTES : Nat := 65535

def LOCATOR_BYTES : Nat := 20

def ZIP64_EOCD_BYTES : Nat := 56

/-- `PK` and two more bytes. -/
def endSignature : List UInt8 := [80, 75, 5, 6]

def locatorSignature : List UInt8 := [80, 75, 6, 7]

def zip64Signature : List UInt8 := [80, 75, 6, 6]

def leU16 (bytes : List UInt8) : ZipRun Nat := readLe 2 0 bytes

def leU32 (bytes : List UInt8) : ZipRun Nat := readLe 4 0 bytes

def leU64 (bytes : List UInt8) : ZipRun Nat := readLe 8 0 bytes

/-- Seek and read exactly as many bytes; an input error of the program where they are not there. -/
def readExact (archive : List UInt8) (offset length : Nat) (what : String) :
    ZipRun (List UInt8) :=
  if offset + length ≤ archive.length then .ok ((archive.drop offset).take length)
  else throw (.error ("unable to read " ++ what))

def validateZipDirectoryBounds (offset bytes endLimit archiveBytes : Nat) : ZipRun Unit :=
  match addChecked 64 offset bytes with
  | none => throw (.error "zip central-directory bounds overflowed")
  | some stop =>
    if endLimit < stop ∨ archiveBytes < stop then
      throw (.error "zip central directory lies outside the archive")
    else pure ()

/-! ## The zip64 record -/

/-- The locator before the end record names the place of the zip64 record. -/
def readLocator (locator : List UInt8) : ZipRun Nat :=
  if locatorSignature.isPrefixOf locator = false then
    throw (.error "zip64 archive has no valid end-record locator")
  else do
    let disk ← leU32 (← sliceFrom locator 4)
    let disks ← leU32 (← sliceFrom locator 16)
    if disk ≠ 0 ∨ disks ≠ 1 then throw (.error "multi-disk zip64 archives are not supported")
    else leU64 (← sliceFrom locator 8)

/-- The fields of the zip64 record, when it ends where the locator begins. -/
def readZip64Record (archiveBytes locatorOffset zip64Offset : Nat) (eocd : List UInt8) :
    ZipRun ZipDirectoryInfo :=
  if zip64Signature.isPrefixOf eocd = false then
    throw (.error "zip64 archive has no valid end record")
  else do
    let recordSize ← leU64 (← sliceFrom eocd 4)
    if recordSize < 44 then throw (.error "zip64 end record is too short")
    else
      match (addChecked 64 zip64Offset 12).bind fun offset => addChecked 64 offset recordSize with
      | none => throw (.error "zip64 end-record size overflowed")
      | some recordEnd =>
        if recordEnd ≠ locatorOffset ∨ archiveBytes < recordEnd then
          throw (.error "zip64 end record has inconsistent bounds")
        else do
          let disk ← leU32 (← sliceFrom eocd 16)
          let directoryDisk ← leU32 (← sliceFrom eocd 20)
          if disk ≠ 0 ∨ directoryDisk ≠ 0 then
            throw (.error "multi-disk zip64 archives are not supported")
          else
            let diskMembers ← leU64 (← sliceFrom eocd 24)
            let members ← leU64 (← sliceFrom eocd 32)
            if diskMembers ≠ members then
              throw (.error "zip64 end record has inconsistent member counts")
            else
              let directoryBytes ← leU64 (← sliceFrom eocd 40)
              let directoryOffset ← leU64 (← sliceFrom eocd 48)
              validateZipDirectoryBounds directoryOffset directoryBytes zip64Offset archiveBytes
              pure { members := members, bytes := directoryBytes }

def zip64DirectoryInfo (archive : ArchiveFile) (eocdOffset : Nat) : ZipRun ZipDirectoryInfo :=
  match subChecked eocdOffset LOCATOR_BYTES with
  | none => throw (.error "zip64 archive is missing its end-record locator")
  | some locatorOffset => do
    let locator ← readExact archive.bytes locatorOffset LOCATOR_BYTES "zip64 locator"
    let zip64Offset ← readLocator locator
    let eocd ← readExact archive.bytes zip64Offset ZIP64_EOCD_BYTES "zip64 end record"
    readZip64Record archive.bytes.length locatorOffset zip64Offset eocd

/-! ## The end record -/

/-- Whether an end record stands at an offset, with a comment that ends with the text. -/
def isRecordAt (tail : List UInt8) (offset : Nat) : ZipRun Bool := do
  let rest ← sliceFrom tail offset
  if endSignature.isPrefixOf rest then
    let commentOffset ← addFit 64 offset 20
    let commentLength ← leU16 (← sliceFrom tail commentOffset)
    let commentStart ← addFit 64 offset EOCD_BYTES
    let recordEnd ← addFit 64 commentStart commentLength
    pure (recordEnd = tail.length)
  else pure false

/-- The last end record, searched from an offset downwards. -/
def findRecord (tail : List UInt8) : Nat → ZipRun (Option Nat)
  | 0 => do
    if ← isRecordAt tail 0 then pure (some 0) else pure none
  | offset + 1 => do
    if ← isRecordAt tail (offset + 1) then pure (some (offset + 1)) else findRecord tail offset

/-- The fields of the end record; a field at its largest number stands for one of the zip64
record. -/
def readEndRecord (archive : ArchiveFile) (eocdOffset : Nat) (eocd : List UInt8) :
    ZipRun ZipDirectoryInfo := do
  let disk ← leU16 (← sliceFrom eocd 4)
  let directoryDisk ← leU16 (← sliceFrom eocd 6)
  let diskMembers ← leU16 (← sliceFrom eocd 8)
  let members ← leU16 (← sliceFrom eocd 10)
  let directoryBytes ← leU32 (← sliceFrom eocd 12)
  let directoryOffset ← leU32 (← sliceFrom eocd 16)
  if disk ≠ 0 ∨ directoryDisk ≠ 0 then
    throw (.error "multi-disk zip archives are not supported")
  else if diskMembers = 2 ^ 16 - 1 ∨ members = 2 ^ 16 - 1 ∨ directoryBytes = 2 ^ 32 - 1
      ∨ directoryOffset = 2 ^ 32 - 1 then
    zip64DirectoryInfo archive eocdOffset
  else if diskMembers ≠ members then
    throw (.error "zip end record has inconsistent member counts")
  else
    validateZipDirectoryBounds directoryOffset directoryBytes eocdOffset archive.bytes.length
    pure { members := members, bytes := directoryBytes }

def zipDirectoryInfo (archive : ArchiveFile) : ZipRun ZipDirectoryInfo :=
  if archive.bytes.length < EOCD_BYTES then
    throw (.error "zip archive is too short to contain an end record")
  else do
    let searchBytes := min archive.bytes.length (MAX_COMMENT_BYTES + EOCD_BYTES)
    let searchOffset ← subFit archive.bytes.length searchBytes
    let tail ← readExact archive.bytes searchOffset searchBytes "zip end record"
    let last ← subFit tail.length EOCD_BYTES
    match ← findRecord tail last with
    | none => throw (.error "zip archive has no valid end-of-central-directory record")
    | some relativeOffset =>
      let recordEnd ← addFit 64 relativeOffset EOCD_BYTES
      let eocd ← sliceRange tail relativeOffset recordEnd
      match addChecked 64 searchOffset relativeOffset with
      | none => throw (.error "zip end-record offset overflowed")
      | some eocdOffset => readEndRecord archive eocdOffset eocd

/-! ## What is reported -/

/-- An end record whose comment ends with the archive. -/
structure EndsAt (archive : List UInt8) (record : Nat) : Prop where
  signature : endSignature <+: archive.drop record
  whole : record + EOCD_BYTES + field archive (record + 20) 2 = archive.length

/-- The central directory ends no later than the end record that describes it. -/
structure PlainDirectory (archive : List UInt8) (record : Nat) (info : ZipDirectoryInfo) :
    Prop where
  members : info.members = field archive (record + 10) 2
  size : info.bytes = field archive (record + 12) 4
  inside : field archive (record + 16) 4 + info.bytes ≤ record

/-- The central directory ends no later than the zip64 record, which ends where its locator begins;
the locator ends where the end record begins. -/
structure WideDirectory (archive : List UInt8) (record place wide : Nat) (info : ZipDirectoryInfo) :
    Prop where
  locator : locatorSignature <+: archive.drop place
  locatorEnds : place + LOCATOR_BYTES = record
  located : field archive (place + 8) 8 = wide
  signature : zip64Signature <+: archive.drop wide
  whole : ZIP64_EOCD_BYTES ≤ 12 + field archive (wide + 4) 8
  ends : wide + 12 + field archive (wide + 4) 8 = place
  members : info.members = field archive (wide + 32) 8
  size : info.bytes = field archive (wide + 40) 8
  inside : field archive (wide + 48) 8 + info.bytes ≤ wide

/-- What is reported is the central directory of the archive's end record. -/
def Describes (archive : List UInt8) (info : ZipDirectoryInfo) : Prop :=
  ∃ record, EndsAt archive record ∧ (PlainDirectory archive record info
    ∨ ∃ place wide, WideDirectory archive record place wide info)

/-! ## Reading fields -/

theorem safe_field {bytes : List UInt8} {offset width : Nat} (h : offset + width ≤ bytes.length) :
    Safe (sliceFrom bytes offset >>= readLe width 0 : ZipRun Nat) (· = field bytes offset width) := by
  refine (safe_sliceFrom (by omega)).bind fun rest hrest => ?_
  subst hrest
  have hlen : 0 + width ≤ (bytes.drop offset).length := by
    rw [List.length_drop]
    omega
  exact safe_readLe width hlen

/-- Read a field and go on with it. -/
theorem safe_field_bind {β : Type} {bytes : List UInt8} {offset width : Nat} {next : Nat → ZipRun β}
    {post : β → Prop} (h : offset + width ≤ bytes.length)
    (hnext : Safe (next (field bytes offset width)) post) :
    Safe (sliceFrom bytes offset >>= fun rest => readLe width 0 rest >>= next) post := by
  rw [← bind_assoc]
  refine (safe_field h).bind fun value hvalue => ?_
  rw [hvalue]
  exact hnext

theorem isPrefixOf_of_not_false {sign bytes : List UInt8} (h : ¬ sign.isPrefixOf bytes = false) :
    sign <+: bytes := by
  rw [Bool.not_eq_false] at h
  exact List.isPrefixOf_iff_prefix.mp h

/-- A signature of a part of a text is one of the text. -/
theorem prefix_of_take {sign bytes : List UInt8} {length : Nat} (h : sign <+: bytes.take length) :
    sign <+: bytes :=
  h.trans (List.take_prefix length bytes)

theorem safe_readExact (archive : List UInt8) (offset length : Nat) (what : String) :
    Safe (readExact archive offset length what)
      (fun read => read = (archive.drop offset).take length ∧ read.length = length) := by
  unfold readExact
  split
  · refine ⟨rfl, ?_⟩
    rw [List.length_take, List.length_drop]
    omega
  · trivial

theorem safe_bounds (offset bytes endLimit archiveBytes : Nat) :
    Safe (validateZipDirectoryBounds offset bytes endLimit archiveBytes)
      (fun _ => offset + bytes ≤ endLimit) := by
  unfold validateZipDirectoryBounds
  cases hstop : addChecked 64 offset bytes with
  | none => trivial
  | some stop =>
    have hsum := addChecked_eq_some hstop
    dsimp only
    split
    · trivial
    · rename_i hinside
      show offset + bytes ≤ endLimit
      omega

/-! ## The zip64 record -/

theorem safe_readLocator {locator : List UInt8} (hlen : locator.length = LOCATOR_BYTES) :
    Safe (readLocator locator)
      (fun wide => locatorSignature <+: locator ∧ wide = field locator 8 8) := by
  have hlen : locator.length = 20 := hlen
  unfold readLocator
  split
  · trivial
  · rename_i hsign
    refine safe_field_bind (by omega) (safe_field_bind (by omega) ?_)
    split
    · trivial
    · refine (@safe_field locator 8 8 (by omega)).mono fun wide hwide => ?_
      exact ⟨isPrefixOf_of_not_false hsign, hwide⟩

theorem safe_readZip64Record {eocd : List UInt8} (archiveBytes locatorOffset wide : Nat)
    (hlen : eocd.length = ZIP64_EOCD_BYTES) :
    Safe (readZip64Record archiveBytes locatorOffset wide eocd) (fun info =>
      zip64Signature <+: eocd ∧ 44 ≤ field eocd 4 8
        ∧ wide + 12 + field eocd 4 8 = locatorOffset ∧ info.members = field eocd 32 8
        ∧ info.bytes = field eocd 40 8 ∧ field eocd 48 8 + info.bytes ≤ wide) := by
  have hlen : eocd.length = 56 := hlen
  unfold readZip64Record
  split
  · trivial
  · rename_i hsign
    refine safe_field_bind (by omega) ?_
    split
    · trivial
    · rename_i hlong
      cases hend : (addChecked 64 wide 12).bind fun offset =>
          addChecked 64 offset (field eocd 4 8) with
      | none => trivial
      | some recordEnd =>
        obtain ⟨start, hstart, hstop⟩ := Option.bind_eq_some_iff.mp hend
        have hstart := addChecked_eq_some hstart
        have hstop := addChecked_eq_some hstop
        dsimp only
        split
        · trivial
        · rename_i hbounds
          refine safe_field_bind (by omega) (safe_field_bind (by omega) ?_)
          split
          · trivial
          · refine safe_field_bind (by omega) (safe_field_bind (by omega) ?_)
            split
            · trivial
            · refine safe_field_bind (by omega) (safe_field_bind (by omega) ?_)
              refine (safe_bounds _ _ _ _).bind fun _ hinside => ?_
              have hwhole : wide + 12 + field eocd 4 8 = locatorOffset := by omega
              exact safe_pure
                ⟨isPrefixOf_of_not_false hsign, by omega, hwhole, rfl, rfl, hinside⟩

theorem safe_zip64DirectoryInfo (archive : ArchiveFile) (record : Nat) :
    Safe (zip64DirectoryInfo archive record) (fun info =>
      ∃ place wide, WideDirectory archive.bytes record place wide info) := by
  unfold zip64DirectoryInfo
  cases hplace : subChecked record LOCATOR_BYTES with
  | none => trivial
  | some place =>
    have hplace := subChecked_eq_some hplace
    refine (safe_readExact _ _ _ _).bind fun locator ⟨hlocator, hlen⟩ => ?_
    refine (safe_readLocator hlen).bind fun wide ⟨hsign, hwide⟩ => ?_
    refine (safe_readExact _ _ _ _).bind fun eocd ⟨heocd, hlen64⟩ => ?_
    refine (safe_readZip64Record _ _ _ hlen64).mono fun info hinfo => ?_
    rcases hinfo with ⟨hsign64, hlong, hends, hmembers, hsize, hinside⟩
    -- a field of a buffer that was read is the field of the archive at its place
    have hread : ∀ {offset width : Nat}, offset + width ≤ ZIP64_EOCD_BYTES →
        field eocd offset width = field archive.bytes (wide + offset) width := by
      intro offset width hfits
      rw [heocd]
      exact field_take_drop archive.bytes hfits
    rw [hread (by decide)] at hlong hends hinside hmembers hsize
    rw [hlocator] at hsign
    rw [heocd] at hsign64
    refine ⟨place, wide, prefix_of_take hsign, by omega, ?_, prefix_of_take hsign64, ?_, hends,
      hmembers, hsize, hinside⟩
    · rw [hwide, hlocator]
      exact (field_take_drop archive.bytes (by decide)).symm
    · unfold ZIP64_EOCD_BYTES
      omega

/-! ## The end record -/

theorem safe_isRecordAt {tail : List UInt8} {offset : Nat} (hfits : tail.length < 2 ^ 63)
    (h : offset + EOCD_BYTES ≤ tail.length) :
    Safe (isRecordAt tail offset) (fun found => found = true → endSignature <+: tail.drop offset
      ∧ offset + EOCD_BYTES + field tail (offset + 20) 2 = tail.length) := by
  have hoffset : offset + 22 ≤ tail.length := h
  have hcomment := field_lt tail (offset + 20) 2
  unfold isRecordAt
  refine (safe_sliceFrom (by omega)).bind fun rest hrest => ?_
  subst hrest
  split
  · rename_i hsign
    refine (safe_addFit (by omega)).bind fun commentOffset hcommentOffset => ?_
    subst hcommentOffset
    refine safe_field_bind (by omega) ?_
    refine (safe_addFit (by unfold EOCD_BYTES; omega)).bind fun commentStart hstart => ?_
    subst hstart
    refine (safe_addFit (by unfold EOCD_BYTES; omega)).bind fun recordEnd hend => ?_
    subst hend
    refine safe_pure fun hfound => ⟨List.isPrefixOf_iff_prefix.mp hsign, ?_⟩
    exact of_decide_eq_true hfound
  · exact safe_pure nofun

theorem safe_findRecord {tail : List UInt8} (hfits : tail.length < 2 ^ 63) :
    ∀ {last : Nat}, last + EOCD_BYTES ≤ tail.length →
      Safe (findRecord tail last) (fun found => ∀ offset, found = some offset →
        endSignature <+: tail.drop offset
          ∧ offset + EOCD_BYTES + field tail (offset + 20) 2 = tail.length) := by
  intro last
  induction last with
  | zero =>
    intro h
    unfold findRecord
    refine (safe_isRecordAt hfits h).bind fun found hfound => ?_
    split
    · rename_i htrue
      refine safe_pure fun offset hoffset => ?_
      rw [← Option.some.inj hoffset]
      exact hfound htrue
    · exact safe_pure nofun
  | succ last ih =>
    intro h
    unfold findRecord
    refine (safe_isRecordAt hfits h).bind fun found hfound => ?_
    split
    · rename_i htrue
      refine safe_pure fun offset hoffset => ?_
      rw [← Option.some.inj hoffset]
      exact hfound htrue
    · exact ih (by omega)

theorem safe_readEndRecord (archive : ArchiveFile) (record : Nat) {eocd : List UInt8}
    (hlen : eocd.length = EOCD_BYTES)
    (hread : ∀ {offset width : Nat}, offset + width ≤ EOCD_BYTES →
      field eocd offset width = field archive.bytes (record + offset) width) :
    Safe (readEndRecord archive record eocd) (fun info =>
      PlainDirectory archive.bytes record info
        ∨ ∃ place wide, WideDirectory archive.bytes record place wide info) := by
  have hlen : eocd.length = 22 := hlen
  unfold readEndRecord
  refine safe_field_bind (by omega) (safe_field_bind (by omega) ?_)
  refine safe_field_bind (by omega) (safe_field_bind (by omega) ?_)
  refine safe_field_bind (by omega) (safe_field_bind (by omega) ?_)
  split
  · trivial
  · split
    · exact (safe_zip64DirectoryInfo archive record).mono fun info hinfo => Or.inr hinfo
    · split
      · trivial
      · refine (safe_bounds _ _ _ _).bind fun _ hinside => ?_
        have hplace : field eocd 16 4 = field archive.bytes (record + 16) 4 := hread (by decide)
        rw [hplace] at hinside
        exact safe_pure (Or.inl ⟨hread (by decide), hread (by decide), hinside⟩)

/-- The whole search: the record that is found in the last bytes is one of the archive. -/
theorem safe_zipDirectoryInfo (archive : ArchiveFile) :
    Safe (zipDirectoryInfo archive) (Describes archive.bytes) := by
  have hfits := archive.fits
  unfold zipDirectoryInfo
  split
  · trivial
  · rename_i hlong
    have hlong : 22 ≤ archive.bytes.length := Nat.not_lt.mp hlong
    refine (safe_subFit (Nat.min_le_left _ _)).bind fun searchOffset hoffset => ?_
    refine (safe_readExact _ _ _ _).bind fun tail ⟨htail, htailLen⟩ => ?_
    have hwindow : 22 ≤ tail.length ∧ tail.length ≤ 65557
        ∧ searchOffset + tail.length = archive.bytes.length := by
      rw [htailLen]
      unfold MAX_COMMENT_BYTES EOCD_BYTES at *
      omega
    refine (safe_subFit (by unfold EOCD_BYTES; omega)).bind fun last hlast => ?_
    have hlast : last + 22 = tail.length := by
      unfold EOCD_BYTES at hlast
      omega
    refine (safe_findRecord (by omega) (Nat.le_of_eq hlast)).bind fun found hfound => ?_
    cases found with
    | none => trivial
    | some relativeOffset =>
      rcases hfound relativeOffset rfl with ⟨hsign, hwhole⟩
      have hrecord : relativeOffset + 22 + field tail (relativeOffset + 20) 2 = tail.length :=
        hwhole
      dsimp only
      refine (safe_addFit (by unfold EOCD_BYTES; omega)).bind fun recordEnd hend => ?_
      have hend : recordEnd = relativeOffset + 22 := hend
      refine (safe_sliceRange (by omega) (by omega)).bind fun eocd heocd => ?_
      cases hsum : addChecked 64 searchOffset relativeOffset with
      | none => trivial
      | some record =>
        have hsum := addChecked_eq_some hsum
        have hinTail : ∀ {offset width : Nat}, offset + width ≤ tail.length →
            field tail offset width = field archive.bytes (searchOffset + offset) width := by
          intro offset width hoff
          rw [htailLen] at hoff
          rw [htail]
          exact field_take_drop archive.bytes hoff
        have hinRecord : ∀ {offset width : Nat}, offset + width ≤ EOCD_BYTES →
            field eocd offset width = field archive.bytes (record + offset) width := by
          intro offset width hoff
          have hoff : offset + width ≤ 22 := hoff
          rw [heocd, field_take_drop tail (by omega), hinTail (by omega), hsum, Nat.add_assoc]
        have heocdLen : eocd.length = EOCD_BYTES := by
          rw [heocd, List.length_take, List.length_drop]
          unfold EOCD_BYTES
          omega
        refine (safe_readEndRecord archive record heocdLen hinRecord).mono fun info hinfo => ?_
        refine ⟨record, ⟨?_, ?_⟩, hinfo⟩
        · rw [htail, List.drop_take, List.drop_drop, ← hsum] at hsign
          exact prefix_of_take hsign
        · rw [hinTail (by omega), ← Nat.add_assoc, ← hsum] at hrecord
          unfold EOCD_BYTES
          omega

/-- Reading the end of an archive neither overflows nor leaves a buffer, and the central directory
it reports is the one of the record with which the archive ends. -/
theorem zipDirectoryInfo_safe (archive : ArchiveFile) :
    zipDirectoryInfo archive ≠ .error .overflow ∧ zipDirectoryInfo archive ≠ .error .outOfBounds
      ∧ ∀ info, zipDirectoryInfo archive = .ok info → Describes archive.bytes info :=
  safe_iff.mp (safe_zipDirectoryInfo archive)

end TypePython.Archive
