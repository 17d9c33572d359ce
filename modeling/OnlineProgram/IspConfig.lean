import OnlineProgram.JsonTree
import OnlineProgram.SystemCalls

/-!
# The configuration of a target

`getISPCfg` reads a JSON text from the card and fills an `ISP_CONFIG_T`.  It
looks whether the eight members are there, and not what they are.
-/

namespace OnlineProgram

open ByteStrings CMemory ResourceRuns

/-- `ISP_CONFIG_T` -/
structure IspConfig where
  tragetIC : CArray 32
  encode : CArray 16
  baudrate : UInt32
  flashStartAddress : UInt32
  sectorSize : UInt32
  sectorNum : UInt32
  ramStartAddress : UInt32
  ramSize : UInt32

def cfgFileSizeLimit : Nat := 1024

/-- The eight items that `getISPCfg` copies. -/
structure CfgItems where
  platform : CJson
  encode : CJson
  baudrate : CJson
  flashStartAddress : CJson
  flashSectorSize : CJson
  flashSectorNum : CJson
  ramStartAddress : CJson
  ramSize : CJson

/-- "lack of item" -/
def cfgItems (json : CJson) : Option CfgItems := do
  let platform ← cjsonGetObjectItem json (ascii "platform")
  let memoryMap ← cjsonGetObjectItem json (ascii "map")
  let ispSetting ← cjsonGetObjectItem json (ascii "ISP_setting")
  let baudrate ← cjsonGetObjectItem ispSetting (ascii "baudrate")
  let encode ← cjsonGetObjectItem ispSetting (ascii "encode")
  let flashStartAddress ← cjsonGetObjectItem memoryMap (ascii "flash_start_address")
  let flashSectorSize ← cjsonGetObjectItem memoryMap (ascii "flash_sector_size")
  let flashSectorNum ← cjsonGetObjectItem memoryMap (ascii "flash_sector_num")
  let ramStartAddress ← cjsonGetObjectItem memoryMap (ascii "ram_start_address")
  let ramSize ← cjsonGetObjectItem memoryMap (ascii "ram_size")
  some
    { platform, encode, baudrate, flashStartAddress, flashSectorSize, flashSectorNum,
      ramStartAddress, ramSize }

/-- An `int` stored in an `uint32_t`. -/
def storeInt (value : Int) : UInt32 :=
  UInt32.ofBitVec (BitVec.ofInt 32 value)

/-- `sprintf` of a `valuestring` into an array of `config`. -/
def sprintfItem {size : Nat} (item : CJson) (array : CArray size) :
    Except Fault (CArray size) := do
  let text ← derefString item.valuestring
  array.write 0 (text ++ [0])

/-- The assignments to the fields of `config`. -/
def fillConfig (items : CfgItems) (config : IspConfig) : Except Fault IspConfig := do
  let tragetIC ← sprintfItem items.platform config.tragetIC
  let encode ← sprintfItem items.encode config.encode
  .ok
    { tragetIC
      encode
      baudrate := storeInt items.baudrate.valueint
      flashStartAddress := storeInt items.flashStartAddress.valueint
      sectorSize := storeInt items.flashSectorSize.valueint
      sectorNum := storeInt items.flashSectorNum.valueint
      ramStartAddress := storeInt items.ramStartAddress.valueint
      ramSize := storeInt items.ramSize.valueint }

/-- What `txt` holds after `fread` and the store of the terminating zero.  The
size is an `int`, and `fread` takes it as a `size_t`. -/
def readTxt (file : SdFile) (txt : CArray (cfgFileSizeLimit + 1)) : Except Fault Bytes := do
  let txt ← txt.write 0 (file.fread 0 (file.size % 2 ^ 32).toNat)
  if file.size < 0 then .error .outOfBounds
  else do
    let txt ← txt.write file.size.toNat [0]
    cString txt.bytes

section Runs

variable (heap : Heap) (parse : Bytes → Option CJson)

/-- The label `Exit` of `getISPCfg`, which leaves `txtFlit` and the parse
tree. -/
def exitCfg (ret : Int) : Run Fault (Option IspConfig) Int := do
  closeFile
  free
  pure ret

/-- `getISPCfg` with both buffers at hand. -/
def parseCfg (file : SdFile) (txt : CArray (cfgFileSizeLimit + 1)) (config : IspConfig) :
    Run Fault (Option IspConfig) Int := do
  let text ← attempt (readTxt file txt)
  match ← cjsonParse parse text with
  | none => exitCfg (-5)
  | some json =>
      match cfgItems json with
      | none => exitCfg (-6)
      | some items => do
          onState fun _ => (fillConfig items config).map fun filled => ((), some filled)
          pure 0

/-- `getISPCfg` with the file open. -/
def loadCfg (file : SdFile) (config : IspConfig) : Run Fault (Option IspConfig) Int :=
  if file.size > cfgFileSizeLimit then do
    closeFile
    pure (-3)
  else do
    match ← malloc heap (cfgFileSizeLimit + 1) with
    | none => do
        closeFile
        pure (-4)
    | some txt =>
        match ← malloc heap (cfgFileSizeLimit + 1) with
        | none => do
            closeFile
            pure (-4)
        | some _ => parseCfg parse file txt config

/-- `getISPCfg`, where the state is what `config` points at. -/
def getIspCfg (fopen : Bytes → Option SdFile) (path : Option Bytes) :
    Run Fault (Option IspConfig) Int := do
  match path, (← get).state with
  | some path, some config =>
      match fopen path with
      | none => pure (-2)
      | some file => do
          openFile
          loadCfg heap parse file config
  | _, _ => pure (-1)

end Runs

/-! ### The members of a document -/

/-- The members that are numbers. -/
inductive CfgNumber where
  | baudrate
  | flashStartAddress
  | flashSectorSize
  | flashSectorNum
  | ramStartAddress
  | ramSize

def platformPath : List Bytes := [ascii "platform"]

def encodePath : List Bytes := [ascii "ISP_setting", ascii "encode"]

def CfgNumber.path : CfgNumber → List Bytes
  | .baudrate => [ascii "ISP_setting", ascii "baudrate"]
  | .flashStartAddress => [ascii "map", ascii "flash_start_address"]
  | .flashSectorSize => [ascii "map", ascii "flash_sector_size"]
  | .flashSectorNum => [ascii "map", ascii "flash_sector_num"]
  | .ramStartAddress => [ascii "map", ascii "ram_start_address"]
  | .ramSize => [ascii "map", ascii "ram_size"]

def CfgItems.number (items : CfgItems) : CfgNumber → CJson
  | .baudrate => items.baudrate
  | .flashStartAddress => items.flashStartAddress
  | .flashSectorSize => items.flashSectorSize
  | .flashSectorNum => items.flashSectorNum
  | .ramStartAddress => items.ramStartAddress
  | .ramSize => items.ramSize

def IspConfig.number (config : IspConfig) : CfgNumber → UInt32
  | .baudrate => config.baudrate
  | .flashStartAddress => config.flashStartAddress
  | .flashSectorSize => config.sectorSize
  | .flashSectorNum => config.sectorNum
  | .ramStartAddress => config.ramStartAddress
  | .ramSize => config.ramSize

/-- What a configuration may say. -/
structure CfgValues where
  platform : Bytes
  encode : Bytes
  number : CfgNumber → Fin (2 ^ 31)
  platform_length : platform.length ≤ 31
  encode_length : encode.length ≤ 15

/-- The document says it. -/
structure Describes (root : JsonValue) (values : CfgValues) : Prop where
  platform : root.valueAt platformPath = some (.string values.platform)
  encode : root.valueAt encodePath = some (.string values.encode)
  number : ∀ field : CfgNumber, root.valueAt field.path =
    some (.number (values.number field).val)

/-- One of the eight members is not in the document. -/
def LacksMember (root : JsonValue) : Prop :=
  root.valueAt platformPath = none ∨ root.valueAt encodePath = none ∨
    ∃ field : CfgNumber, root.valueAt field.path = none

/-- The fields of the structure equal the values. -/
structure IspConfig.Holds (config : IspConfig) (values : CfgValues) : Prop where
  tragetIC : cString config.tragetIC.bytes = .ok values.platform
  encode : cString config.encode.bytes = .ok values.encode
  number : ∀ field : CfgNumber, (config.number field).toNat = values.number field

/-- A document that describes a configuration is read into `config` with the
return value 0, and any other leaves `config` with another return value. -/
structure ReadsConfig (document : Option JsonValue) (config : IspConfig)
    (ends : Except Fault (Int × World (Option IspConfig))) : Prop where
  accepts : ∀ root ∈ document, ∀ values, Describes root values →
    ∃ after filled, ends = .ok (0, after) ∧ after.state = some filled ∧ filled.Holds values
  rejects : (¬ ∃ root ∈ document, ∃ values, Describes root values) →
    ∃ ret after, ends = .ok (ret, after) ∧ ret ≠ 0 ∧ after.state = some config

theorem cfgItems_eq_some_iff {json : CJson} {items : CfgItems} :
    cfgItems json = some items ↔
      json.itemAt platformPath = some items.platform ∧
        json.itemAt encodePath = some items.encode ∧
        ∀ field : CfgNumber, json.itemAt field.path = some (items.number field) := by
  have forall_number (P : CfgNumber → Prop) :
      (∀ field, P field) ↔ P .baudrate ∧ P .flashStartAddress ∧ P .flashSectorSize ∧
        P .flashSectorNum ∧ P .ramStartAddress ∧ P .ramSize := by
    constructor
    · intro all
      exact ⟨all _, all _, all _, all _, all _, all _⟩
    · rintro ⟨_, _, _, _, _, _⟩ field
      cases field <;> assumption
  rw [forall_number]
  unfold cfgItems
  simp only [CfgNumber.path, platformPath, encodePath, CJson.itemAt, CfgItems.number]
  cases cjsonGetObjectItem json (ascii "map") with
  | none => simp
  | some memoryMap =>
      cases cjsonGetObjectItem json (ascii "ISP_setting") with
      | none => simp
      | some ispSetting =>
          simp only [Option.bind_eq_bind, Option.bind_some, Option.bind_eq_some_iff,
            Option.some.injEq, Option.bind_fun_some]
          constructor
          · rintro ⟨platform, platformIs, baudrate, baudrateIs, encode, encodeIs, flashStart,
              flashStartIs, sectorSize, sectorSizeIs, sectorNum, sectorNumIs, ramStart, ramStartIs,
              ramSize, ramSizeIs, rfl⟩
            exact ⟨platformIs, encodeIs, baudrateIs, flashStartIs, sectorSizeIs, sectorNumIs,
              ramStartIs, ramSizeIs⟩
          · rintro ⟨platformIs, encodeIs, baudrateIs, flashStartIs, sectorSizeIs, sectorNumIs,
              ramStartIs, ramSizeIs⟩
            exact ⟨_, platformIs, _, baudrateIs, _, encodeIs, _, flashStartIs, _, sectorSizeIs, _,
              sectorNumIs, _, ramStartIs, _, ramSizeIs, rfl⟩

theorem cfgItems_eq_none_iff {json : CJson} :
    cfgItems json = none ↔
      json.itemAt platformPath = none ∨ json.itemAt encodePath = none ∨
        ∃ field : CfgNumber, json.itemAt field.path = none := by
  constructor
  · intro lacking
    by_contra present
    simp only [not_or, not_exists, Option.ne_none_iff_exists'] at present
    obtain ⟨⟨platform, platformIs⟩, ⟨encode, encodeIs⟩, numbers⟩ := present
    choose number numberIs using numbers
    have found : cfgItems json = some
        { platform
          encode
          baudrate := number .baudrate
          flashStartAddress := number .flashStartAddress
          flashSectorSize := number .flashSectorSize
          flashSectorNum := number .flashSectorNum
          ramStartAddress := number .ramStartAddress
          ramSize := number .ramSize } := by
      apply cfgItems_eq_some_iff.mpr
      refine ⟨platformIs, encodeIs, fun field => ?_⟩
      rw [numberIs field]
      cases field <;> rfl
    rw [lacking] at found
    cases found
  · intro absent
    cases found : cfgItems json with
    | none => rfl
    | some items =>
        obtain ⟨platformIs, encodeIs, numberIs⟩ := cfgItems_eq_some_iff.mp found
        rcases absent with noPlatform | noEncode | ⟨field, noNumber⟩
        · simp [platformIs] at noPlatform
        · simp [encodeIs] at noEncode
        · simp [numberIs field] at noNumber

theorem Describes.not_lacksMember {root : JsonValue} {values : CfgValues}
    (describes : Describes root values) : ¬ LacksMember root := by
  rintro (noPlatform | noEncode | ⟨field, noNumber⟩)
  · simp [describes.platform] at noPlatform
  · simp [describes.encode] at noEncode
  · simp [describes.number field] at noNumber

section Documents

variable {json : CJson} {root : JsonValue} {items : CfgItems} {values : CfgValues}

/-- The code finds a member missing where the document lacks one. -/
theorem Represents.lacksMember_iff (represents : Represents json root) :
    LacksMember root ↔ cfgItems json = none := by
  have none_iff (path : List Bytes) : root.valueAt path = none ↔ json.itemAt path = none := by
    have related := represents.valueAt path
    generalize json.itemAt path = item, root.valueAt path = value at related
    cases related <;> simp
  unfold LacksMember
  rw [cfgItems_eq_none_iff]
  simp only [none_iff]

/-- The item of a path stands for the value there. -/
theorem Represents.itemAt (represents : Represents json root) {path : List Bytes}
    {value : JsonValue} {item : CJson} (valueIs : root.valueAt path = some value)
    (itemIs : json.itemAt path = some item) : Represents item value := by
  have related := represents.valueAt path
  rw [valueIs, itemIs] at related
  cases related with
  | some found => exact found

theorem sprintfItem_spec {size : Nat} {item : CJson} {text : Bytes}
    (represents : Represents item (.string text)) (fits : text.length < size)
    (array : CArray size) :
    ∃ after, sprintfItem item array = .ok after ∧ cString after.bytes = .ok text := by
  cases represents with
  | string valuestring nonzero leaf =>
      obtain ⟨after, written⟩ : ∃ after, array.write 0 (text ++ [0]) = .ok after :=
        CArray.write_isOk_iff.mpr (by simpa using fits)
      refine ⟨after, ?_, ?_⟩
      · simpa [sprintfItem, derefString, valuestring, bind, Except.bind] using written
      · have contents := (CArray.write_contents written).2
        rw [contents]
        simpa [splice] using cString_append (array.bytes.drop (text.length + 1)) nonzero

theorem storeInt_toNat (value : Fin (2 ^ 31)) : (storeInt value.val).toNat = value := by
  have small : value.val < 2 ^ 31 := value.isLt
  change (BitVec.ofInt 32 (value.val : Int)).toNat = value
  rw [BitVec.ofInt_natCast, BitVec.toNat_ofNat]
  exact Nat.mod_eq_of_lt (by omega)

theorem storeInt_number {item : CJson} {value : Fin (2 ^ 31)}
    (represents : Represents item (.number value.val)) :
    (storeInt item.valueint).toNat = value := by
  cases represents with
  | number noString leaf rounds =>
      have small : value.val < 2 ^ 31 := value.isLt
      rw [rounds value.val (by simp) (by omega) (by omega), storeInt_toNat]

/-- The values of a document that describes a configuration are copied. -/
theorem fillConfig_spec (represents : Represents json root) (describes : Describes root values)
    (found : cfgItems json = some items) (config : IspConfig) :
    ∃ filled, fillConfig items config = .ok filled ∧ filled.Holds values := by
  obtain ⟨platformIs, encodeIs, numberIs⟩ := cfgItems_eq_some_iff.mp found
  have platformFits : values.platform.length < 32 := Nat.lt_succ_of_le values.platform_length
  have encodeFits : values.encode.length < 16 := Nat.lt_succ_of_le values.encode_length
  obtain ⟨tragetIC, platformMade, platformHeld⟩ :=
    sprintfItem_spec (represents.itemAt describes.platform platformIs) platformFits
      config.tragetIC
  obtain ⟨encode, encodeMade, encodeHeld⟩ :=
    sprintfItem_spec (represents.itemAt describes.encode encodeIs) encodeFits config.encode
  refine ⟨_, by rw [fillConfig, platformMade, encodeMade]; rfl, platformHeld, encodeHeld, ?_⟩
  intro field
  have stored := storeInt_number (represents.itemAt (describes.number field) (numberIs field))
  cases field <;> exact stored

end Documents

/-! ### Reading the file -/

/-- The text in the file: a string of C ends at the first zero. -/
def BinFile.text (file : BinFile) : Bytes :=
  file.content.takeWhile (· ≠ 0)

theorem BinFile.size_of_small {file : BinFile} (small : file.content.length ≤ cfgFileSizeLimit) :
    file.size = file.content.length := by
  unfold cfgFileSizeLimit at small
  unfold BinFile.size
  rw [BitVec.toInt_eq_toNat_of_lt] <;> simp <;> omega

theorem readTxt_spec {file : BinFile} (small : file.content.length ≤ cfgFileSizeLimit)
    (txt : CArray (cfgFileSizeLimit + 1)) : readTxt file.sdFile txt = .ok file.text := by
  have size : file.sdFile.size = file.content.length := BinFile.size_of_small small
  have count : (file.sdFile.size % 2 ^ 32).toNat = file.content.length := by
    unfold cfgFileSizeLimit at small
    omega
  have data : file.sdFile.fread 0 file.content.length = file.content := by
    simp [BinFile.fread]
  have notNegative : ¬ file.sdFile.size < 0 := by
    omega
  obtain ⟨filled, fills⟩ : ∃ filled, txt.write 0 file.content = .ok filled :=
    CArray.write_isOk_iff.mpr (by omega)
  obtain ⟨terminated, terminates⟩ :
      ∃ terminated, filled.write file.content.length [0] = .ok terminated :=
    CArray.write_isOk_iff.mpr (by simpa using small)
  have contents : terminated.bytes =
      file.content ++ 0 :: txt.bytes.drop (file.content.length + 1) := by
    have fits := (CArray.write_contents fills).1
    rw [(CArray.write_contents terminates).2, (CArray.write_contents fills).2]
    have joined : splice (splice txt.bytes 0 file.content) (0 + file.content.length) [0] =
        splice txt.bytes 0 (file.content ++ [0]) :=
      splice_splice (by rw [txt.length_eq]; exact fits)
    rw [Nat.zero_add] at joined
    rw [joined]
    simp [splice]
  unfold readTxt
  rw [count, data, fills]
  simp only [bind, Except.bind]
  rw [if_neg notNegative, size, Int.toNat_natCast, terminates]
  simp only []
  rw [contents, cString_zero]
  rfl

section Reading

variable {heap : Heap} {parse : Bytes → Option CJson} {file : SdFile}
  {txt : CArray (cfgFileSizeLimit + 1)} {text : Bytes} {config : IspConfig}
  {world : World (Option IspConfig)}

theorem parseCfg_eq (reads : readTxt file txt = .ok text) :
    parseCfg parse file txt config world =
      match parse text with
      | none => exitCfg (-5) world
      | some json =>
          match cfgItems json with
          | none => exitCfg (-6) (world.hold 0 json.blocks)
          | some items => (fillConfig items config).map fun filled =>
              (0, { world.hold 0 json.blocks with state := some filled }) := by
  unfold parseCfg
  rw [reads, attempt_bind_ok]
  cases parsed : parse text with
  | none => rw [cjsonParse_bind_none parsed]
  | some json =>
      rw [cjsonParse_bind_some parsed, own_bind]
      simp only []
      cases cfgItems json with
      | none => rfl
      | some items =>
          simp only []
          cases filled : fillConfig items config with
          | error fault => rfl
          | ok filled => rfl

/-- With both buffers there, what is left is to parse. -/
theorem loadCfg_eq (parse : Bytes → Option CJson) {flit : CArray (cfgFileSizeLimit + 1)}
    (config : IspConfig) (world : World (Option IspConfig))
    (small : file.size ≤ cfgFileSizeLimit)
    (first : heap world.requests (cfgFileSizeLimit + 1) = some txt)
    (second : heap (world.requests + 1) (cfgFileSizeLimit + 1) = some flit) :
    loadCfg heap parse file config world =
      parseCfg parse file txt config ((world.countRequest.hold 0 1).countRequest.hold 0 1) := by
  unfold loadCfg
  rw [if_neg (by omega), malloc_bind_some world first]
  simp only []
  rw [malloc_bind_some (world.countRequest.hold 0 1) second]

theorem getIspCfg_null (heap : Heap) (parse : Bytes → Option CJson)
    (fopen : Bytes → Option SdFile) (path : Bytes) (null : world.state = none) :
    getIspCfg heap parse fopen (some path) world = .ok (-1, world) := by
  change (match some path, world.state with
    | some path, some config => _
    | _, _ => _ : Run Fault (Option IspConfig) Int) world = _
  rw [null]
  rfl

/-- A call that comes to `fopen`. -/
theorem getIspCfg_eq (heap : Heap) (parse : Bytes → Option CJson)
    (fopen : Bytes → Option SdFile) (path : Bytes) (given : world.state = some config) :
    getIspCfg heap parse fopen (some path) world =
      match fopen path with
      | none => .ok (-2, world)
      | some file => loadCfg heap parse file config (world.hold 1 0) := by
  change (match some path, world.state with
    | some path, some config => _
    | _, _ => _ : Run Fault (Option IspConfig) Int) world = _
  simp only [given]
  cases fopen path with
  | none => rfl
  | some file => rfl

end Reading

/-! ### Sample configurations -/

def numberItem (name : String) (value : Int) : CJson :=
  { string := some (ascii name), valueint := value, valuestring := none, child := [] }

def stringItem (name text : String) : CJson :=
  { string := some (ascii name), valueint := 0, valuestring := some (ascii text), child := [] }

def objectItem (name : Option String) (child : List CJson) : CJson :=
  { string := name.map ascii, valueint := 0, valuestring := none, child }

/-- The tree of a configuration with a given start of the flash memory. -/
def sampleTree (flashStart : CJson) : CJson :=
  objectItem none
    [stringItem "platform" "LPC11C14",
      objectItem (some "ISP_setting") [numberItem "baudrate" 115200, stringItem "encode" "UU"],
      objectItem (some "map")
        [flashStart, numberItem "flash_sector_size" 4096, numberItem "flash_sector_num" 8,
          numberItem "ram_start_address" 268435456, numberItem "ram_size" 8192]]

def sampleValue (flashStart : JsonValue) : JsonValue :=
  .object
    [(ascii "platform", .string (ascii "LPC11C14")),
      (ascii "ISP_setting", .object
        [(ascii "baudrate", .number 115200), (ascii "encode", .string (ascii "UU"))]),
      (ascii "map", .object
        [(ascii "flash_start_address", flashStart), (ascii "flash_sector_size", .number 4096),
          (ascii "flash_sector_num", .number 8), (ascii "ram_start_address", .number 268435456),
          (ascii "ram_size", .number 8192)])]

/-- What stands before and behind the start of the flash memory. -/
def sampleFront : Bytes :=
  ascii "\x7b\"platform\":\"LPC11C14\",\"ISP_setting\":\x7b\"baudrate\":115200," ++
    ascii "\"encode\":\"UU\"\x7d,\"map\":\x7b\"flash_start_address\":"

def sampleBack : Bytes :=
  ascii ",\"flash_sector_size\":4096,\"flash_sector_num\":8," ++
    ascii "\"ram_start_address\":268435456,\"ram_size\":8192\x7d\x7d"

def sampleText (flashStart : String) : Bytes :=
  sampleFront ++ ascii flashStart ++ sampleBack

/-- A parser that knows one text. -/
def parseOnly {α : Type} (known : Bytes) (tree : α) (text : Bytes) : Option α :=
  if text = known then some tree else none

theorem parseOnly_rel {known : Bytes} {tree : CJson} {root : JsonValue}
    (represents : Represents tree root) (text : Bytes) :
    Option.Rel Represents (parseOnly known tree text) (parseOnly known root text) := by
  unfold parseOnly
  split
  · exact .some represents
  · exact .none

theorem represents_numberItem (name : String) (value : Int) :
    Represents (numberItem name value) (.number value) := by
  refine .number rfl rfl fun integer same _ _ => ?_
  exact_mod_cast same

theorem represents_stringItem (name : String) {text : String}
    (nonzero : (0 : UInt8) ∉ ascii text) :
    Represents (stringItem name text) (.string (ascii text)) :=
  .string rfl nonzero rfl

theorem represents_sampleTree {flashStart : CJson} {value : JsonValue}
    (represents : Represents flashStart value)
    (named : flashStart.string = some (ascii "flash_start_address")) :
    Represents (sampleTree flashStart) (sampleValue value) := by
  have setting : Represents
      (objectItem (some "ISP_setting") [numberItem "baudrate" 115200, stringItem "encode" "UU"])
      (.object [(ascii "baudrate", .number 115200), (ascii "encode", .string (ascii "UU"))]) :=
    .object rfl rfl (.cons (represents_numberItem _ 115200)
      (.cons (represents_stringItem _ (by decide)) .nil))
  have memoryMap : Represents
      (objectItem (some "map")
        [flashStart, numberItem "flash_sector_size" 4096, numberItem "flash_sector_num" 8,
          numberItem "ram_start_address" 268435456, numberItem "ram_size" 8192])
      (.object
        [(ascii "flash_start_address", value), (ascii "flash_sector_size", .number 4096),
          (ascii "flash_sector_num", .number 8), (ascii "ram_start_address", .number 268435456),
          (ascii "ram_size", .number 8192)]) := by
    refine .object rfl (by simp [objectItem, numberItem, named]) ?_
    exact .cons represents (.cons (represents_numberItem _ 4096)
      (.cons (represents_numberItem _ 8) (.cons (represents_numberItem _ 268435456)
        (.cons (represents_numberItem _ 8192) .nil))))
  exact .object rfl rfl
    (.cons (represents_stringItem _ (by decide)) (.cons setting (.cons memoryMap .nil)))

/-- The text is a string that fits. -/
structure SampleFits (flashStart : String) : Prop where
  small : (sampleText flashStart).length ≤ cfgFileSizeLimit
  nonzero : (0 : UInt8) ∉ sampleText flashStart

theorem sampleFits {flashStart : String} (short : (ascii flashStart).length ≤ 5)
    (nonzero : (0 : UInt8) ∉ ascii flashStart) : SampleFits flashStart where
  small := by
    have front : sampleFront.length = 100 := by decide +kernel
    have back : sampleBack.length = 94 := by decide +kernel
    unfold sampleText cfgFileSizeLimit
    simp only [List.length_append, front, back]
    omega
  nonzero := by
    have front : (0 : UInt8) ∉ sampleFront := by decide +kernel
    have back : (0 : UInt8) ∉ sampleBack := by decide +kernel
    simp [sampleText, front, nonzero, back]

theorem sampleFits_number : SampleFits "0" :=
  sampleFits (by decide) (by decide)

theorem sampleFits_quoted : SampleFits "\"0x0\"" :=
  sampleFits (by decide) (by decide)

def sampleFile {flashStart : String} (fits : SampleFits flashStart) : BinFile where
  content := sampleText flashStart
  short := Nat.lt_of_le_of_lt fits.small (by decide)

theorem sampleFile_text {flashStart : String} (fits : SampleFits flashStart) :
    (sampleFile fits).text = sampleText flashStart :=
  takeWhile_nonzero fits.nonzero

/-- `config` before the call. -/
def emptyConfig : IspConfig :=
  { tragetIC := .zeroed 32
    encode := .zeroed 16
    baudrate := 0
    flashStartAddress := 0
    sectorSize := 0
    sectorNum := 0
    ramStartAddress := 0
    ramSize := 0 }

def fullHeap : Heap := fun _ size => some (.zeroed size)

def sampleValues : CfgValues where
  platform := ascii "LPC11C14"
  encode := ascii "UU"
  number
    | .baudrate => 115200
    | .flashStartAddress => 0
    | .flashSectorSize => 4096
    | .flashSectorNum => 8
    | .ramStartAddress => 268435456
    | .ramSize => 8192
  platform_length := by decide
  encode_length := by decide

/-! ### The configurations that are read -/

section Accepted

variable {heap : Heap} {parse : Bytes → Option CJson} {fopen : Bytes → Option SdFile}
  {path : Bytes} {file : BinFile} {config : IspConfig} {world : World (Option IspConfig)}

/-- Access and allocation succeed. -/
structure Opens (heap : Heap) (fopen : Bytes → Option SdFile) (path : Bytes) (file : BinFile) :
    Prop where
  opens : fopen path = some file.sdFile
  allocates : ∀ number size, heap number size ≠ none

/-- The parser is all that decides. -/
theorem Opens.getIspCfg_eq (access : Opens heap fopen path file) (parse : Bytes → Option CJson)
    (small : file.content.length ≤ cfgFileSizeLimit) (given : world.state = some config) :
    ∃ before : World (Option IspConfig), before.state = some config ∧
      getIspCfg heap parse fopen (some path) world =
        match parse file.text with
        | none => exitCfg (-5) before
        | some json =>
            match cfgItems json with
            | none => exitCfg (-6) (before.hold 0 json.blocks)
            | some items => (fillConfig items config).map fun filled =>
                (0, { before.hold 0 json.blocks with state := some filled }) := by
  obtain ⟨txt, first⟩ :=
    Option.ne_none_iff_exists'.mp (access.allocates world.requests (cfgFileSizeLimit + 1))
  obtain ⟨flit, second⟩ :=
    Option.ne_none_iff_exists'.mp (access.allocates (world.requests + 1) (cfgFileSizeLimit + 1))
  have sizeSmall : file.sdFile.size ≤ cfgFileSizeLimit := by
    rw [BinFile.sdFile_size, BinFile.size_of_small small]
    exact_mod_cast small
  refine ⟨((world.hold 1 0).countRequest.hold 0 1).countRequest.hold 0 1, given, ?_⟩
  rw [OnlineProgram.getIspCfg_eq heap parse fopen path given, access.opens]
  simp only []
  rw [loadCfg_eq parse config (world.hold 1 0) sizeSmall first second,
    parseCfg_eq (readTxt_spec small txt)]

/-- Where all members are there, nothing else is asked of them. -/
theorem getIspCfg_returns_zero {json : CJson} {items : CfgItems} {ret : Int}
    {after : World (Option IspConfig)} (access : Opens heap fopen path file)
    (small : file.content.length ≤ cfgFileSizeLimit) (given : world.state = some config)
    (parsed : parse file.text = some json) (found : cfgItems json = some items)
    (ends : getIspCfg heap parse fopen (some path) world = .ok (ret, after)) : ret = 0 := by
  obtain ⟨before, -, runs⟩ := access.getIspCfg_eq parse small given
  rw [runs, parsed] at ends
  simp only [found] at ends
  cases filled : fillConfig items config with
  | error fault => simp [filled, Except.map] at ends
  | ok filled' =>
      rw [filled] at ends
      exact (Prod.mk.inj (Except.ok.inj ends)).1.symm

/-- A text that describes nothing is only to be turned away. -/
theorem readsConfig_exitCfg {document : Option JsonValue} {ret : Int} (nonzero : ret ≠ 0)
    (undescribed : ¬ ∃ root ∈ document, ∃ values, Describes root values)
    (given : world.state = some config) : ReadsConfig document config (exitCfg ret world) where
  accepts := by
    intro root same values describes
    exact absurd ⟨root, same, values, describes⟩ undescribed
  rejects _ := ⟨ret, _, rfl, nonzero, given⟩

/-- The code reads a configuration rightly exactly when the text is none, lacks
a member, or has all members of the right kind. -/
theorem getIspCfg_reads_config_iff {meaning : Bytes → Option JsonValue}
    (faithful : ∀ text, Option.Rel Represents (parse text) (meaning text))
    (access : Opens heap fopen path file) (small : file.content.length ≤ cfgFileSizeLimit)
    (given : world.state = some config) :
    ReadsConfig (meaning file.text) config (getIspCfg heap parse fopen (some path) world) ↔
      ∀ root ∈ meaning file.text, LacksMember root ∨ ∃ values, Describes root values := by
  obtain ⟨before, beforeGiven, runs⟩ := access.getIspCfg_eq parse small given
  have related := faithful file.text
  constructor
  · intro reads root document
    by_contra neither
    obtain ⟨lacks, undescribed⟩ := not_or.mp neither
    rw [document] at related reads
    cases parsed : parse file.text with
    | none =>
        rw [parsed] at related
        cases related
    | some json =>
        rw [parsed] at related
        have represents : Represents json root := by
          cases related with
          | some found => exact found
        obtain ⟨items, found⟩ := Option.ne_none_iff_exists'.mp
          fun lacking => lacks (represents.lacksMember_iff.mpr lacking)
        obtain ⟨ret, after, ends, nonzero, -⟩ := reads.rejects (by
          rintro ⟨other, same, values, describes⟩
          obtain rfl := Option.mem_some_iff.mp same
          exact undescribed ⟨values, describes⟩)
        exact nonzero (getIspCfg_returns_zero access small given parsed found ends)
  · intro complete
    rw [runs]
    generalize parse file.text = tree, meaning file.text = document at related complete ⊢
    cases related with
    | none => exact readsConfig_exitCfg (by decide) (by simp) beforeGiven
    | @some json root represents =>
        rcases complete root rfl with lacks | ⟨values, describes⟩
        · have lacking := represents.lacksMember_iff.mp lacks
          simp only [lacking]
          refine readsConfig_exitCfg (by decide) ?_ beforeGiven
          rintro ⟨other, same, values, describes⟩
          obtain rfl := Option.mem_some_iff.mp same
          exact describes.not_lacksMember lacks
        · obtain ⟨items, found⟩ := Option.ne_none_iff_exists'.mp fun lacking =>
            describes.not_lacksMember (represents.lacksMember_iff.mpr lacking)
          simp only [found]
          refine
            { accepts := ?_
              rejects := fun undescribed => absurd ⟨root, rfl, values, describes⟩ undescribed }
          intro other same otherValues otherDescribes
          obtain rfl := Option.mem_some_iff.mp same
          obtain ⟨filled, fills, holds⟩ :=
            fillConfig_spec represents otherDescribes found config
          exact ⟨_, filled, by rw [fills]; rfl, rfl, holds⟩

end Accepted

/-- A quoted address is taken for the address zero. -/
theorem getIspCfg_misreads_quoted_address :
    (sampleText "\"0x0\"").length ≤ cfgFileSizeLimit ∧
      (∀ text, Option.Rel Represents
        (parseOnly (sampleText "\"0x0\"") (sampleTree (stringItem "flash_start_address" "0x0"))
          text)
        (parseOnly (sampleText "\"0x0\"") (sampleValue (.string (ascii "0x0"))) text)) ∧
      ¬ ReadsConfig
        (parseOnly (sampleText "\"0x0\"") (sampleValue (.string (ascii "0x0")))
          (sampleText "\"0x0\"")) emptyConfig
        (getIspCfg fullHeap
          (parseOnly (sampleText "\"0x0\"") (sampleTree (stringItem "flash_start_address" "0x0")))
          (fun _ => some (sampleFile sampleFits_quoted).sdFile)
          (some (ascii "/sd/lpc.json")) (World.fresh (some emptyConfig))) := by
  refine ⟨sampleFits_quoted.small, parseOnly_rel (represents_sampleTree
    (represents_stringItem _ (by decide)) rfl), fun reads => ?_⟩
  have undescribed : ∀ values, ¬ Describes (sampleValue (.string (ascii "0x0"))) values := by
    intro values describes
    have isNumber := describes.number .flashStartAddress
    have isString : (sampleValue (.string (ascii "0x0"))).valueAt
        CfgNumber.flashStartAddress.path = some (.string (ascii "0x0")) := rfl
    rw [isString] at isNumber
    cases isNumber
  obtain ⟨ret, after, ends, nonzero, -⟩ := reads.rejects (by
    rintro ⟨root, same, values, describes⟩
    rw [parseOnly, if_pos rfl] at same
    obtain rfl := Option.mem_some_iff.mp same
    exact undescribed values describes)
  obtain ⟨items, found⟩ := Option.isSome_iff_exists.mp
    (by decide : (cfgItems (sampleTree (stringItem "flash_start_address" "0x0"))).isSome)
  refine nonzero (getIspCfg_returns_zero ⟨rfl, fun _ _ => by simp [fullHeap]⟩
    sampleFits_quoted.small rfl ?_ found ends)
  rw [sampleFile_text, parseOnly, if_pos rfl]

theorem getIspCfg_reads_sample :
    ReadsConfig
      (parseOnly (sampleText "0") (sampleValue (.number 0)) (sampleFile sampleFits_number).text)
      emptyConfig
      (getIspCfg fullHeap
        (parseOnly (sampleText "0") (sampleTree (numberItem "flash_start_address" 0)))
        (fun _ => some (sampleFile sampleFits_number).sdFile)
        (some (ascii "/sd/lpc.json")) (World.fresh (some emptyConfig))) := by
  apply (getIspCfg_reads_config_iff
    (parseOnly_rel (represents_sampleTree (represents_numberItem _ 0) rfl))
    ⟨rfl, fun _ _ => by simp [fullHeap]⟩ sampleFits_number.small rfl).mpr
  intro root same
  rw [sampleFile_text, parseOnly, if_pos rfl] at same
  obtain rfl := Option.mem_some_iff.mp same
  refine .inr ⟨sampleValues, ?_⟩
  exact
    { platform := rfl
      encode := rfl
      number := fun field => by cases field <;> rfl }

end OnlineProgram
