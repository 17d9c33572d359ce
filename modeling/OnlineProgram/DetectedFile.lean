import OnlineProgram.CMemory

/-!
# The file that is found

`detectFile` looks through a directory of the card for a name with a given
ending, and builds the path of the file.  It looks for the ending anywhere in
the name.
-/

namespace OnlineProgram

open ByteStrings CMemory

/-- `_MAX_LFN` -/
def maxLfn : Nat := 255

/-- The size of the arrays `binFilePath` and `cfgFilePath`. -/
def filePathSize : Nat := 36

/-- `d_name` of a `dirent`. -/
structure DirEntry where
  name : Bytes
  nonzero : (0 : UInt8) ∉ name
  short : name.length ≤ maxLfn

def sdRootDirectory : Bytes := ascii "/sd"

/-- What `detectFile` does with the first name that it takes. -/
def takeEntry (name : Bytes) (path : CArray filePathSize) :
    Except Fault (Int × CArray filePathSize) := do
  let differs ← strcmp path.bytes (name ++ [0])
  if differs ≠ 0 then do
    let path ← path.write 0 [0]
    let path ← path.strcat sdRootDirectory
    let path ← path.strcat (ascii "/")
    let path ← path.strcat name
    .ok (0, path)
  else .ok (0, path)

/-- The loop of `detectFile` over what `readdir` returns. -/
def detectLoop (fileType : Bytes) :
    List DirEntry → CArray filePathSize → Except Fault (Int × CArray filePathSize)
  | [], path => .ok (-3, path)
  | fp :: rest, path => do
      let p ← strstr (fp.name ++ [0]) 0 fileType
      if p ≠ none then takeEntry fp.name path else detectLoop fileType rest path

/-- `detectFile`, where `opendir` gives the names in a directory. -/
def detectFile (opendir : Bytes → Option (List DirEntry)) (dir fileType : Option Bytes)
    (path : Option (CArray filePathSize)) :
    Except Fault (Int × Option (CArray filePathSize)) :=
  match dir, path, fileType with
  | some dir, some path, some fileType =>
      match opendir dir with
      | none => .ok (-2, some path)
      | some entries =>
          (detectLoop fileType entries path).map fun (ret, path) => (ret, some path)
  | _, _, _ => .ok (-1, path)

/-! ### The path of a file -/

def DirEntry.path (entry : DirEntry) : Bytes :=
  ascii "/sd/" ++ entry.name

/-- The path and its terminating zero fit the array. -/
def DirEntry.Fits (entry : DirEntry) : Prop :=
  entry.path.length < filePathSize

theorem DirEntry.fits_iff {entry : DirEntry} : entry.Fits ↔ entry.name.length ≤ 31 := by
  have front : (ascii "/sd/").length = 4 := by decide
  unfold Fits path filePathSize
  rw [List.length_append, front]
  omega

theorem DirEntry.name_ne_path (entry : DirEntry) : entry.name ≠ entry.path := by
  intro same
  have front : (ascii "/sd/").length = 4 := by decide
  have lengths := congrArg List.length same
  rw [path, List.length_append, front] at lengths
  omega

theorem rootPath_spec (path : CArray filePathSize) :
    ∃ cleared root slash, path.write 0 [0] = .ok cleared ∧
      cleared.strcat sdRootDirectory = .ok root ∧ root.strcat (ascii "/") = .ok slash ∧
      cString slash.bytes = .ok (ascii "/sd/") := by
  obtain ⟨cleared, clears⟩ : ∃ cleared, path.write 0 [0] = .ok cleared :=
    CArray.write_isOk_iff.mpr (by decide)
  have empty : cString cleared.bytes = .ok [] := by
    rw [(CArray.write_contents clears).2]
    rfl
  obtain ⟨root, roots, rootIs⟩ :=
    CArray.strcat_of_fits empty (by decide : (0 : UInt8) ∉ sdRootDirectory) (by decide)
  obtain ⟨slash, slashes, slashIs⟩ :=
    CArray.strcat_of_fits rootIs (by decide : (0 : UInt8) ∉ ascii "/") (by decide)
  exact ⟨cleared, root, slash, clears, roots, slashes, slashIs⟩

/-- A name that is in the array already is left there. -/
theorem takeEntry_held {entry : DirEntry} {path : CArray filePathSize}
    (held : cString path.bytes = .ok entry.name) : takeEntry entry.name path = .ok (0, path) := by
  unfold takeEntry
  rw [(strcmp_eq_zero_iff entry.nonzero).mpr held]
  rfl

/-- Any other name is joined to the root. -/
theorem takeEntry_differs {name : Bytes} {path : CArray filePathSize} {differs : Int}
    (compared : strcmp path.bytes (name ++ [0]) = .ok differs) (nonzero : differs ≠ 0) :
    ∃ slash : CArray filePathSize, cString slash.bytes = .ok (ascii "/sd/") ∧
      takeEntry name path = (slash.strcat name).map fun after => (0, after) := by
  obtain ⟨cleared, root, slash, clears, roots, slashes, slashIs⟩ := rootPath_spec path
  refine ⟨slash, slashIs, ?_⟩
  unfold takeEntry
  rw [compared]
  simp only [bind, Except.bind]
  rw [if_pos nonzero, clears]
  simp only [roots, slashes]
  cases slash.strcat name with
  | error fault => rfl
  | ok after => rfl

section Entries

variable {entry : DirEntry} {path : CArray filePathSize}

theorem takeEntry_fits (fresh : cString path.bytes ≠ .ok entry.name) (fits : entry.Fits) :
    ∃ after, takeEntry entry.name path = .ok (0, after) ∧
      cString after.bytes = .ok entry.path := by
  have longer : entry.name.length < path.bytes.length := by
    have short := DirEntry.fits_iff.mp fits
    rw [path.length_eq]
    unfold filePathSize
    omega
  obtain ⟨differs, compared⟩ := strcmp_returns longer
  have nonzero : differs ≠ 0 := by
    rintro rfl
    exact fresh ((strcmp_eq_zero_iff entry.nonzero).mp compared)
  obtain ⟨slash, slashIs, taken⟩ := takeEntry_differs compared nonzero
  obtain ⟨after, joined, joinedIs⟩ :=
    CArray.strcat_of_fits slashIs entry.nonzero (by simpa [DirEntry.Fits, DirEntry.path] using fits)
  exact ⟨after, by rw [taken, joined]; rfl, joinedIs⟩

/-- A path that is too long is written beyond the array, if the comparison has
not left the array before. -/
theorem takeEntry_overflow (fresh : cString path.bytes ≠ .ok entry.name) (long : ¬ entry.Fits) :
    ∃ fault, takeEntry entry.name path = .error fault := by
  cases compared : strcmp path.bytes (entry.name ++ [0]) with
  | error fault => exact ⟨fault, by rw [takeEntry, compared]; rfl⟩
  | ok differs =>
      have nonzero : differs ≠ 0 := by
        rintro rfl
        exact fresh ((strcmp_eq_zero_iff entry.nonzero).mp compared)
      obtain ⟨slash, slashIs, taken⟩ := takeEntry_differs compared nonzero
      have joined := CArray.strcat_of_overflow slashIs
        (by simpa [DirEntry.Fits, DirEntry.path] using long)
      exact ⟨.bufferOverflow, by rw [taken, joined]; rfl⟩

end Entries

/-! ### The first name -/

section Search

variable {fileType : Bytes} {entries : List DirEntry} {entry : DirEntry}

/-- The first name that ends in the type of the file. -/
def firstEnding (fileType : Bytes) (entries : List DirEntry) : Option DirEntry :=
  entries.find? fun entry => fileType <:+ entry.name

/-- The first name with the type of the file somewhere in it. -/
def firstContaining (fileType : Bytes) (entries : List DirEntry) : Option DirEntry :=
  entries.find? fun entry => fileType <:+: entry.name

/-- The loop takes the first name that contains the type. -/
theorem detectLoop_eq (nonempty : fileType ≠ []) (nonzero : (0 : UInt8) ∉ fileType)
    (entries : List DirEntry) (path : CArray filePathSize) :
    detectLoop fileType entries path =
      match firstContaining fileType entries with
      | none => .ok (-3, path)
      | some entry => takeEntry entry.name path := by
  induction entries with
  | nil => rfl
  | cons fp rest ih =>
      obtain ⟨found, search, occurs⟩ := searchFrom_string nonempty nonzero fp.nonzero [] 0
      have looks : strstr (fp.name ++ [0]) 0 fileType = .ok found := search
      unfold detectLoop firstContaining
      rw [looks, List.find?_cons]
      simp only [bind, Except.bind]
      by_cases inside : fileType <:+: fp.name
      · rw [if_pos (occurs.mpr inside)]
        simp [inside]
      · rw [if_neg (mt occurs.mp inside), ih]
        simp [inside, firstContaining]

theorem firstEnding_eq_none (absent : firstContaining fileType entries = none) :
    firstEnding fileType entries = none := by
  apply List.find?_eq_none.mpr
  intro other member ends
  have inside := (of_decide_eq_true ends).isInfix
  exact List.find?_eq_none.mp absent other member (decide_eq_true inside)

/-- Where the first name that contains the type ends in it, it is the first such
name. -/
theorem firstEnding_eq_some (first : firstContaining fileType entries = some entry)
    (ends : fileType <:+ entry.name) : firstEnding fileType entries = some entry := by
  obtain ⟨-, before, after, rfl, earlier⟩ := List.find?_eq_some_iff_append.mp first
  apply List.find?_eq_some_iff_append.mpr
  refine ⟨decide_eq_true ends, before, after, rfl, fun other member => ?_⟩
  have absent := earlier other member
  simp only [Bool.not_eq_true', decide_eq_false_iff_not] at absent ⊢
  exact fun otherEnds => absent otherEnds.isInfix

end Search

/-- The first file whose name ends in the type is found if its path fits, and
nothing is changed otherwise. -/
structure DetectsFile (fileType : Bytes) (entries : List DirEntry) (path : CArray filePathSize)
    (result : Except Fault (Int × Option (CArray filePathSize))) : Prop where
  found : ∀ entry ∈ firstEnding fileType entries, entry.Fits →
    ∃ after, result = .ok (0, some after) ∧ cString after.bytes = .ok entry.path
  notFound : (¬ ∃ entry ∈ firstEnding fileType entries, entry.Fits) →
    ∃ ret < 0, result = .ok (ret, some path)

namespace DetectsFile

variable {fileType : Bytes} {entries : List DirEntry} {entry : DirEntry}
  {path : CArray filePathSize} {result : Except Fault (Int × Option (CArray filePathSize))}

theorem returns (detects : DetectsFile fileType entries path result) :
    ∃ made, result = .ok made := by
  by_cases ending : ∃ entry ∈ firstEnding fileType entries, entry.Fits
  · obtain ⟨entry, first, fits⟩ := ending
    obtain ⟨after, made, -⟩ := detects.found entry first fits
    exact ⟨_, made⟩
  · obtain ⟨ret, -, made⟩ := detects.notFound ending
    exact ⟨_, made⟩

/-- What is returned with zero is the path of a file of the type. -/
theorem path_of_zero {after : CArray filePathSize}
    (detects : DetectsFile fileType entries path (.ok (0, some after))) :
    ∃ entry ∈ firstEnding fileType entries, cString after.bytes = .ok entry.path := by
  by_cases ending : ∃ entry ∈ firstEnding fileType entries, entry.Fits
  · obtain ⟨entry, first, fits⟩ := ending
    obtain ⟨same, made, isPath⟩ := detects.found entry first fits
    obtain rfl : after = same := by simpa using made
    exact ⟨entry, first, isPath⟩
  · obtain ⟨ret, negative, made⟩ := detects.notFound ending
    obtain ⟨rfl, -⟩ : 0 = ret ∧ _ := by simpa using made
    exact absurd negative (by decide)

theorem of_absent {ret : Int} (absent : firstContaining fileType entries = none)
    (negative : ret < 0) : DetectsFile fileType entries path (.ok (ret, some path)) where
  found := by
    rw [firstEnding_eq_none absent]
    simp
  notFound _ := ⟨ret, negative, rfl⟩

/-- The first name that contains the type decides. -/
theorem taken_iff (first : firstContaining fileType entries = some entry) :
    DetectsFile fileType entries path
        ((takeEntry entry.name path).map fun (ret, path) => (ret, some path)) ↔
      fileType <:+ entry.name ∧ entry.Fits ∧ cString path.bytes ≠ .ok entry.name := by
  constructor
  · intro detects
    have fresh : cString path.bytes ≠ .ok entry.name := by
      intro held
      rw [takeEntry_held held] at detects
      obtain ⟨other, otherFirst, isPath⟩ := detects.path_of_zero
      have same : entry.name = other.path := by simpa [held] using isPath
      have otherEnds : fileType <:+ other.name := by
        simpa using List.find?_some otherFirst
      have ends : fileType <:+ entry.name := by
        rw [same]
        exact otherEnds.trans (List.suffix_append ..)
      rw [firstEnding_eq_some first ends] at otherFirst
      obtain rfl := Option.mem_some_iff.mp otherFirst
      exact entry.name_ne_path same
    by_cases fits : entry.Fits
    · obtain ⟨after, taken, isPath⟩ := takeEntry_fits fresh fits
      rw [taken] at detects
      obtain ⟨other, otherFirst, isOther⟩ := detects.path_of_zero
      have same : entry.name = other.name := by
        simpa [isPath, DirEntry.path] using isOther
      have otherEnds : fileType <:+ other.name := by
        simpa using List.find?_some otherFirst
      exact ⟨same ▸ otherEnds, fits, fresh⟩
    · obtain ⟨fault, taken⟩ := takeEntry_overflow fresh fits
      rw [taken] at detects
      obtain ⟨made, impossible⟩ := detects.returns
      cases impossible
  · rintro ⟨ends, fits, fresh⟩
    obtain ⟨after, taken, isPath⟩ := takeEntry_fits fresh fits
    have firstEnds := firstEnding_eq_some first ends
    rw [taken]
    exact
      { found := by
          intro other same _
          rw [firstEnds] at same
          obtain rfl := Option.mem_some_iff.mp same
          exact ⟨after, rfl, isPath⟩
        notFound := fun absent => absurd ⟨entry, firstEnds, fits⟩ absent }

end DetectsFile

/-- The right file is found exactly when no name contains the type of the file,
or the first name that does ends in it, fits, and is not in the array already. -/
theorem detectFile_detects_iff {fileType : Bytes}
    (caller : fileType ∈ [ascii ".bin", ascii ".json"])
    (opendir : Bytes → Option (List DirEntry)) (dir : Bytes) (path : CArray filePathSize) :
    DetectsFile fileType ((opendir dir).getD []) path
        (detectFile opendir (some dir) (some fileType) (some path)) ↔
      ∀ entry ∈ firstContaining fileType ((opendir dir).getD []),
        fileType <:+ entry.name ∧ entry.Fits ∧ cString path.bytes ≠ .ok entry.name := by
  obtain ⟨nonempty, nonzero⟩ : fileType ≠ [] ∧ (0 : UInt8) ∉ fileType := by
    rcases List.mem_pair.mp caller with rfl | rfl
    · decide
    · decide
  simp only [detectFile]
  cases listing : opendir dir with
  | none =>
      have negative : (-2 : Int) < 0 := by decide
      exact iff_of_true (.of_absent rfl negative) (by simp [firstContaining])
  | some entries =>
      simp only [Option.getD_some]
      rw [detectLoop_eq nonempty nonzero]
      cases first : firstContaining fileType entries with
      | none =>
          have negative : (-3 : Int) < 0 := by decide
          exact iff_of_true (.of_absent first negative) (by simp)
      | some entry =>
          rw [DetectsFile.taken_iff first]
          simp

/-- A backup file and the file that it was made of. -/
def backupEntry : DirEntry :=
  { name := ascii "app.bin.bak", nonzero := by decide, short := by decide }

def binEntry : DirEntry :=
  { name := ascii "app.bin", nonzero := by decide, short := by decide }

/-- The backup file is taken for the file. -/
theorem detectFile_takes_backup :
    ¬ DetectsFile (ascii ".bin") [backupEntry, binEntry] (.zeroed filePathSize)
      (detectFile (fun _ => some [backupEntry, binEntry]) (some sdRootDirectory)
        (some (ascii ".bin")) (some (.zeroed filePathSize))) := by
  have first : firstContaining (ascii ".bin") [backupEntry, binEntry] = some backupEntry := by
    rw [firstContaining, List.find?_cons_of_pos (by decide)]
  simp only [detectFile]
  rw [detectLoop_eq (by decide) (by decide), first]
  intro detects
  have ends := ((DetectsFile.taken_iff first).mp detects).1
  exact absurd ends (by decide)

theorem detectFile_finds_bin :
    DetectsFile (ascii ".bin") [binEntry] (.zeroed filePathSize)
      (detectFile (fun _ => some [binEntry]) (some sdRootDirectory) (some (ascii ".bin"))
        (some (.zeroed filePathSize))) := by
  apply (detectFile_detects_iff (by decide) (fun _ => some [binEntry]) sdRootDirectory
    (.zeroed filePathSize)).mpr
  intro entry first
  have isFirst : firstContaining (ascii ".bin") [binEntry] = some binEntry := by
    rw [firstContaining, List.find?_cons_of_pos (by decide)]
  rw [Option.getD_some, isFirst] at first
  obtain rfl := Option.mem_some_iff.mp first
  exact ⟨by decide, DirEntry.fits_iff.mpr (by decide), by decide⟩

end OnlineProgram
