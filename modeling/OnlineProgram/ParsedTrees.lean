import OnlineProgram.CJsonHeap
import OnlineProgram.CJsonNumbers

/-!
# What the parser leaves on the heap

However requests for memory come out, a tree that is returned holds exactly its
own blocks, and a text without a result leaves nothing behind.  Where no request
is refused, the result is the tree of the plain parser.
-/

namespace OnlineProgram

open ByteStrings CMemory ResourceRuns CJsonParser

variable {D : Type} {τ : Type}

/-! ### The blocks of a tree -/

mutual

/-- Every item is a block, and so are its name and its string. -/
def CJsonItem.blocks : CJsonItem D → Nat
  | ⟨child, _, valuestring, _, _, string⟩ =>
      1 + string.toList.length + valuestring.toList.length + CJsonItem.chainBlocks child

def CJsonItem.chainBlocks : List (CJsonItem D) → Nat
  | [] => 0
  | item :: items => item.blocks + CJsonItem.chainBlocks items

end

mutual

theorem CJsonItem.blocks_toCJson : ∀ item : CJsonItem D, item.toCJson.blocks = item.blocks
  | ⟨child, _, valuestring, _, _, string⟩ => by
      rw [CJsonItem.toCJson, CJson.blocks, CJsonItem.blocks, CJsonItem.listBlocks_toCJson child]

theorem CJsonItem.listBlocks_toCJson : ∀ items : List (CJsonItem D),
    CJson.listBlocks (CJsonItem.toCJsons items) = CJsonItem.chainBlocks items
  | [] => rfl
  | item :: items => by
      rw [CJsonItem.toCJsons, CJson.listBlocks, CJsonItem.chainBlocks,
        CJsonItem.blocks_toCJson item, CJsonItem.listBlocks_toCJson items]

end

theorem CJsonItem.blocks_eq (item : CJsonItem D) :
    item.blocks = 1 + item.string.toList.length + item.valuestring.toList.length +
      CJsonItem.chainBlocks item.child := by
  cases item
  rw [CJsonItem.blocks]

@[simp]
theorem CJsonItem.chainBlocks_nil : CJsonItem.chainBlocks ([] : List (CJsonItem D)) = 0 :=
  rfl

@[simp]
theorem CJsonItem.chainBlocks_cons (item : CJsonItem D) (items : List (CJsonItem D)) :
    CJsonItem.chainBlocks (item :: items) = item.blocks + CJsonItem.chainBlocks items :=
  rfl

theorem CJsonItem.blocks_newItem [DoubleArithmetic D] : (newItem : CJsonItem D).blocks = 1 :=
  rfl

namespace CJsonHeap

/-- Some request for memory comes out null. -/
def Refuses (heap : Heap) : Prop :=
  ∃ number size, heap number size = none

abbrev withString (string : Option Bytes) (item : CJsonItem D) : CJsonItem D :=
  { item with string }

theorem withString_string (item : CJsonItem D) : withString item.string item = item := by
  cases item
  rfl

section Parser

variable [DoubleArithmetic D] (heap : Heap)

/-- An item and the place behind it, made of the item that stands there
already. -/
abbrev itemDuty {α : Type} (object : α → CJsonItem D) (item : CJsonItem D) :
    Duty (CJsonItem D × Option Bytes) (α × Bytes) :=
  .placed object (fun made => (made.blocks : Int) - item.blocks) (Refuses heap)

/-- A chain of items and the place behind it. -/
abbrev chainDuty : Duty (List (CJsonItem D) × Option Bytes) (List (CJsonItem D) × Bytes) :=
  .placed id (fun items => (CJsonItem.chainBlocks items : Int)) (Refuses heap)

/-- A new item, which may have a name. -/
abbrev blankItem (string : Option Bytes) (type : CJsonType) : CJsonItem D :=
  { newItem with string, type }

theorem follows_allocateItem {γ β : Type} {duty : Duty γ β}
    {next : Option (CJsonItem D) → Run Fault τ γ} {scan : Scan Fault β}
    (refused : Refuses heap → Follows duty (next none) scan)
    (given : Follows (duty.less 1) (next (some newItem)) scan) :
    Follows duty (allocateItem heap >>= next) scan := by
  have once : (allocateItem heap >>= next : Run Fault τ γ) =
      malloc heap sizeofCJson >>= fun outcome => next (outcome.map fun _ => newItem) := by
    rw [allocateItem, bind_assoc]
    congr 1
    funext outcome
    cases outcome <;> rfl
  rw [once]
  apply Follows.request
  · intro number isNull
    exact refused ⟨number, _, isNull⟩
  · intro block
    exact given

theorem parseString_eq (str : Bytes) :
    CJsonParser.parseString str = (do
      let byte ← peek str
      if byte ≠ quote then .reject
      else do
        let (distance, len) ← stringEnd (str.drop 1)
        let (out, ptr) ← copyString (len + 1) (distance + 1) distance (str.drop 1) []
        let out ← put (len + 1) out [0]
        let byte ← peek ptr
        pure (blockString out, if byte = quote then ptr.drop 1 else ptr)) := by
  cases str with
  | nil => rfl
  | cons byte str => rfl

theorem parseString_follows (string : Option Bytes) (type : CJsonType) (str : Bytes) :
    Follows (itemDuty heap
        (fun text => { blankItem string .string with valuestring := some text })
        (blankItem string type))
      (parseString heap (blankItem string type : CJsonItem D) str : Run Fault τ _)
      (CJsonParser.parseString str) := by
  have oneMore (text : Bytes) :
      (({ blankItem string .string with valuestring := some text } : CJsonItem D).blocks : Int) -
        (blankItem string type : CJsonItem D).blocks - 1 = 0 := by
    rw [CJsonItem.blocks_eq, CJsonItem.blocks_eq]
    simp [newItem]
  rw [parseString_eq]
  apply Follows.tryScan rfl (Int.sub_self _)
  intro byte
  split
  · exact follows_reject rfl (Int.sub_self _)
  apply Follows.tryScan rfl (Int.sub_self _)
  intro measured
  apply Follows.request
  · intro number refused
    exact follows_refused rfl (Int.sub_self _) (Exists.intro number ⟨_, refused⟩) _
  intro block
  rw [Duty.less_placed]
  apply Follows.tryScan rfl (oneMore _)
  intro copied
  apply Follows.tryScan rfl (oneMore _)
  intro out
  apply Follows.tryScan rfl (oneMore _)
  intro byte
  exact follows_pure rfl (oneMore _)

section Chains

variable {parseItem : CJsonItem D → Bytes → Run Fault τ (CJsonItem D × Option Bytes)}
  {plainItem : Bytes → Scan Fault (CJsonItem D × Bytes)} {closing : UInt8}

theorem parseChain_follows
    (items : ∀ value, Follows (itemDuty heap id newItem) (parseItem newItem value)
      (plainItem value)) (steps : Nat) (value : Bytes) :
    Follows (chainDuty heap) (parseChain heap parseItem closing steps value)
      (CJsonParser.parseChain plainItem closing steps value) := by
  induction steps generalizing value with
  | zero => exact follows_fault _
  | succ steps ih =>
      apply follows_allocateItem heap
      · intro refused
        exact follows_refused rfl rfl refused _
      apply Follows.tryScan rfl rfl
      intro value
      rw [Duty.less_placed]
      apply Follows.unlessNull (items value)
      · intro child
        simp [CJsonItem.blocks_newItem]
      intro child place yields
      have alone : (CJsonItem.chainBlocks [id child] : Int) - 1 -
          ((id child).blocks - (newItem : CJsonItem D).blocks) = 0 := by
        simp [CJsonItem.blocks_newItem]
      apply Follows.tryScan rfl alone
      intro value
      apply Follows.tryScan rfl alone
      intro byte
      split
      · apply Follows.unlessNull (ih _)
        · intro others
          simp [CJsonItem.blocks_newItem]
        intro others place yields
        exact follows_pure rfl (by simp [Duty.placed, CJsonItem.blocks_newItem])
      split
      · exact follows_pure rfl alone
      · exact follows_reject rfl alone

theorem parseChildren_follows
    (items : ∀ value, Follows (itemDuty heap id newItem) (parseItem newItem value)
      (plainItem value)) (value : Bytes) :
    Follows (chainDuty heap) (parseChildren heap parseItem closing value)
      (CJsonParser.parseChildren plainItem closing value) := by
  apply Follows.tryScan rfl rfl
  intro value
  apply Follows.tryScan rfl rfl
  intro byte
  split
  · exact follows_pure rfl rfl
  · exact parseChain_follows heap items _ value

end Chains

theorem parseMember_follows
    {parseValue : CJsonItem D → Bytes → Run Fault τ (CJsonItem D × Option Bytes)}
    {plainValue : Bytes → Scan Fault (CJsonItem D × Bytes)}
    (values : ∀ text value, Follows
      (itemDuty heap (withString (some text)) (blankItem (some text) .string))
      (parseValue (blankItem (some text) .string) value) (plainValue value)) (value : Bytes) :
    Follows (itemDuty heap id newItem) (parseMember heap parseValue newItem value)
      (CJsonParser.parseMember plainValue value) := by
  apply Follows.unlessNull (parseString_follows heap none .unset value)
  · intro child
    rfl
  intro text place yields
  let child : CJsonItem D := { blankItem none .string with valuestring := some text }
  have held : (child.blocks : Int) - (newItem : CJsonItem D).blocks -
      (child.blocks - (newItem : CJsonItem D).blocks) = 0 := Int.sub_self _
  apply Follows.tryScan rfl held
  intro value
  apply Follows.tryScan rfl held
  intro byte
  split
  · apply Follows.tryScan rfl held
    intro value
    refine Follows.map_placed (withString (some text)) ?_
    refine (values text value).congr_placed (fun _ _ _ => rfl) fun part => ?_
    have blanks : (child.blocks : Int) = (blankItem (some text) .string : CJsonItem D).blocks := rfl
    change (part.blocks : Int) - _ = _ - (newItem : CJsonItem D).blocks -
      (child.blocks - (newItem : CJsonItem D).blocks)
    omega
  · exact follows_reject rfl held

theorem follows_unnamed {steps : Nat} {value : Bytes}
    {run : Run Fault τ (CJsonItem D × Option Bytes)}
    (follows : Follows (itemDuty heap (withString none) newItem) run
      (CJsonParser.parseValue steps value)) :
    Follows (itemDuty heap id newItem) run (CJsonParser.parseValue steps value) := by
  refine follows.congr_placed (fun item rest yields => ?_) fun part => rfl
  rw [id, ← parseValue_string yields, withString_string]

/-- Where the item has a name, it keeps it. -/
theorem parseValue_follows (steps : Nat) (string : Option Bytes) (type : CJsonType)
    (value : Bytes) :
    Follows (itemDuty heap (withString string) (blankItem string type))
      (parseValue heap steps (blankItem string type) value : Run Fault τ _)
      (CJsonParser.parseValue (D := D) steps value) := by
  induction steps generalizing string type value with
  | zero => exact follows_fault _
  | succ steps ih =>
      apply Follows.tryScan rfl (Int.sub_self _)
      intro isNull
      split
      · exact follows_pure rfl (Int.sub_self _)
      apply Follows.tryScan rfl (Int.sub_self _)
      intro isFalse
      split
      · exact follows_pure rfl (Int.sub_self _)
      apply Follows.tryScan rfl (Int.sub_self _)
      intro isTrue
      split
      · exact follows_pure rfl (Int.sub_self _)
      apply Follows.tryScan rfl (Int.sub_self _)
      intro byte
      split
      · apply Follows.map_placed CJsonParser.stringItem
        exact parseString_follows heap string type value
      split
      · apply Follows.tryScan rfl (Int.sub_self _)
        intro number
        exact follows_pure rfl (Int.sub_self _)
      have itemHolds (children : List (CJsonItem D)) (type' : CJsonType) :
          (({ blankItem string type' with child := children } : CJsonItem D).blocks : Int) -
            (blankItem string type : CJsonItem D).blocks = CJsonItem.chainBlocks children := by
        simp [CJsonItem.blocks_eq, newItem]
      split
      · apply Follows.unlessNull (parseChildren_follows heap
          (fun value => follows_unnamed heap (ih none .unset value)) _)
        · intro children
          exact itemHolds children _
        intro children place yields
        exact follows_pure rfl (by
          change _ - _ - _ = (0 : Int)
          rw [itemHolds, Int.sub_self])
      split
      · apply Follows.unlessNull (parseChildren_follows heap
          (fun value => parseMember_follows heap (fun text value => ih (some text) .string value)
            value) _)
        · intro children
          exact itemHolds children _
        intro children place yields
        exact follows_pure rfl (by
          change _ - _ - _ = (0 : Int)
          rw [itemHolds, Int.sub_self])
      · exact follows_reject rfl (Int.sub_self _)

end Parser

/-! ### Deleting a tree -/

theorem freeField_eq (block : Option Bytes) (world : World τ) :
    freeField block world = .ok ((), world.hold 0 (-block.toList.length)) := by
  cases block with
  | none =>
      change Except.ok ((), world) = .ok ((), world.hold 0 0)
      rw [World.hold_zero]
  | some text => rfl

mutual

/-- Deleting a tree gives back exactly its blocks. -/
theorem deleteItem_eq (world : World τ) : ∀ item : CJsonItem D,
    deleteItem item world = .ok ((), world.hold 0 (-item.blocks))
  | ⟨child, _, valuestring, _, _, string⟩ => by
      rw [deleteItem, bind_of_ok (deleteItems_eq world child), bind_of_ok (freeField_eq _ _),
        bind_of_ok (freeField_eq _ _), CJsonItem.blocks]
      change Except.ok ((), World.hold _ _ _) = _
      simp only [World.hold_hold]
      congr 3
      push_cast
      omega

theorem deleteItems_eq (world : World τ) : ∀ items : List (CJsonItem D),
    deleteItems items world = .ok ((), world.hold 0 (-CJsonItem.chainBlocks items))
  | [] => congrArg (fun after => Except.ok ((), after)) world.hold_zero.symm
  | item :: items => by
      rw [deleteItems, bind_of_ok (deleteItem_eq world item),
        deleteItems_eq (world.hold 0 (-item.blocks)) items, World.hold_hold,
        CJsonItem.chainBlocks_cons]
      push_cast
      rw [Int.neg_add]

end

/-! ### The parser -/

section Parse

variable [DoubleArithmetic D] (heap : Heap)

/-- The tree that is returned, or none where the parser gives up. -/
abbrev treeDuty : Duty (Option (CJsonItem D)) (CJsonItem D) where
  made := some
  gaveUp := (· = none)
  holds := fun result => result.elim 0 fun item => item.blocks
  refusals := Refuses heap

/-- Where the parser gives up, all that hangs on the root is deleted. -/
theorem follows_deleteItem {run : Run Fault τ (CJsonItem D × Option Bytes)}
    {scan : Scan Fault (CJsonItem D × Bytes)}
    (follows : Follows (itemDuty heap id newItem) run scan) :
    Follows ((treeDuty heap).less 1)
      (do
        let (c, value) ← run
        match value with
        | none => do
            deleteItem c
            pure none
        | some _ => pure (some c))
      (scan >>= fun made => pure made.1) := by
  intro world
  obtain ⟨cause, faults, plainFaults⟩ | ⟨⟨item, value⟩, between, returns, files, blocks, how⟩ :=
    follows world
  · refine .inl ⟨cause, ?_, ?_⟩
    · change (run world).bind _ = _
      rw [faults]
      rfl
    · change scan.run >>= _ = _
      rw [plainFaults]
      rfl
  obtain ⟨made, yields, same⟩ | ⟨null, why⟩ := how
  · obtain ⟨rfl, rfl⟩ := Prod.mk.inj same
    refine .inr ⟨some (id made.1), between, bind_of_ok returns _, files, blocks,
      .inl ⟨made.1, ?_, rfl⟩⟩
    exact yields.bind rfl
  · obtain rfl : value = none := null
    refine .inr ⟨none, between.hold 0 (-item.blocks), ?_, ?_, ?_, .inr ⟨rfl, ?_⟩⟩
    · rw [bind_of_ok returns]
      exact bind_of_ok (deleteItem_eq between item) _
    · exact (Int.add_zero _).trans files
    · change between.liveBlocks + -(item.blocks : Int) = world.liveBlocks + (0 - 1)
      have held : between.liveBlocks = world.liveBlocks + ((item.blocks : Int) - 1) := blocks
      omega
    · obtain rejects | refused := why
      · left
        change scan.run >>= _ = _
        rw [show scan.run = .ok none from rejects]
        rfl
      · exact .inr refused

theorem parse_follows (memory : Bytes) :
    Follows (treeDuty heap) (parse heap memory : Run Fault τ (Option (CJsonItem D))) (do
      let value ← skip memory
      let (item, _) ← CJsonParser.parseValue (D := D) (value.length + 1) value
      pure item) := by
  apply follows_allocateItem heap
  · intro refused
    exact follows_refused rfl rfl refused _
  have parses : Follows (itemDuty heap id newItem)
      (tryScan (skip memory) (newItem, none) fun value =>
        parseValue heap (value.length + 1) newItem value : Run Fault τ (CJsonItem D × _))
      (skip memory >>= fun value => CJsonParser.parseValue (value.length + 1) value) :=
    Follows.tryScan rfl (Int.sub_self _) fun value =>
      follows_unnamed heap (parseValue_follows heap _ none .unset value)
  have deletes := follows_deleteItem heap parses
  rw [bind_assoc] at deletes
  exact deletes

/-- On a text with its final zero the parser comes to an end, whatever requests
for memory are refused.  Its result is that of the plain parser, or null because
of a refusal; nothing is left on the heap but the blocks of the result, and
deleting the result gives these back. -/
theorem parse_returns {text rest : Bytes} (nonzero : (0 : UInt8) ∉ text)
    (doubled : text.getLast? = some backslash → rest.head? = some 0) (world : World τ) :
    ∃ plain result after, cJsonParse D (text ++ 0 :: rest) = .ok plain ∧
      parse heap (text ++ 0 :: rest) world = .ok (result, after) ∧
      (result = plain ∨ result = none ∧ Refuses heap) ∧
      after.openFiles = world.openFiles ∧
      after.liveBlocks = world.liveBlocks + (result.elim 0 CJsonItem.blocks : Nat) ∧
      ∀ item, result = some item → ∃ last, deleteItem item after = .ok ((), last) ∧
        last.openFiles = world.openFiles ∧ last.liveBlocks = world.liveBlocks := by
  obtain ⟨plain, plainReturns⟩ := cJsonParse_returns (D := D) (terminated_append nonzero doubled)
  obtain ⟨cause, -, faults⟩ | ⟨result, after, returns, files, blocks, how⟩ :=
    parse_follows (D := D) heap (text ++ 0 :: rest) world
  · exact absurd (faults.symm.trans plainReturns) nofun
  refine ⟨plain, result, after, plainReturns, returns, ?_, files, ?_, ?_⟩
  · obtain ⟨item, yields, rfl⟩ | ⟨rfl, rejects | refused⟩ := how
    · exact .inl (Except.ok.inj (yields.symm.trans plainReturns))
    · exact .inl (Except.ok.inj (rejects.symm.trans plainReturns))
    · exact .inr ⟨rfl, refused⟩
  · cases result with
    | none => exact blocks
    | some item => exact blocks
  · rintro item rfl
    refine ⟨_, deleteItem_eq after item, (Int.add_zero _).trans files, ?_⟩
    change after.liveBlocks + -(item.blocks : Int) = _
    rw [blocks]
    exact Int.add_neg_cancel_right _ _

/-- An allocator that grants three requests. -/
def smallHeap : Heap := fun number size => if number < 3 then some (.zeroed size) else none

theorem parse_returns_small :
    ∃ (plain result : Option (CJsonItem ℚ)) (after : World Unit),
      cJsonParse ℚ (ascii "[1,\"a\"]" ++ 0 :: []) = .ok plain ∧
        parse smallHeap (ascii "[1,\"a\"]" ++ 0 :: []) (.fresh ()) = .ok (result, after) ∧
        (result = plain ∨ result = none ∧ Refuses smallHeap) ∧ after.openFiles = 0 ∧
        after.liveBlocks = 0 + (result.elim 0 CJsonItem.blocks : Nat) ∧
        ∀ item, result = some item → ∃ last, deleteItem item after = .ok ((), last) ∧
          last.openFiles = 0 ∧ last.liveBlocks = 0 :=
  have nonzero : (0 : UInt8) ∉ ascii "[1,\"a\"]" := by decide +kernel
  have doubled : (ascii "[1,\"a\"]").getLast? = some backslash →
      ([] : Bytes).head? = some 0 := by decide +kernel
  parse_returns (D := ℚ) smallHeap nonzero doubled (.fresh ())

end Parse

end CJsonHeap

end OnlineProgram
