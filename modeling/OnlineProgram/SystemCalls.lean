import OnlineProgram.NetworkMemory
import OnlineProgram.ProgramBinFile
import OnlineProgram.ResourceRuns

/-!
# Files, memory and parse trees

The calls by which the program comes to hold something: `fopen`, `malloc` and
`cJSON_Parse`.  What the card, the allocator and the parser answer is a
parameter.
-/

namespace OnlineProgram

open ByteStrings CMemory ResourceRuns

/-- An open file: what `ftell` returns at its end, and what `fread` stores from
an offset on, which may be less than was asked for. -/
structure SdFile where
  size : Int
  fread : Nat → Nat → Bytes
  fread_length : ∀ offset count, (fread offset count).length ≤ count

/-- A file that is read without failures. -/
def BinFile.sdFile (file : BinFile) : SdFile where
  size := file.size
  fread := file.fread
  fread_length := by
    intro offset count
    exact List.length_take_le ..

@[simp]
theorem BinFile.sdFile_size (file : BinFile) : file.sdFile.size = file.size :=
  rfl

@[simp]
theorem BinFile.sdFile_fread (file : BinFile) : file.sdFile.fread = file.fread :=
  rfl

/-- The outcome of every request for memory. -/
abbrev Heap := Nat → (size : Nat) → Option (CArray size)

section Calls

variable {τ : Type}

def malloc (heap : Heap) (size : Nat) : Run Fault τ (Option (CArray size)) :=
  request fun number => heap number size

theorem adds_malloc_bind {α : Type} {heap : Heap} {size : Nat}
    {next : Option (CArray size) → Run Fault τ α} (refused : Adds (next none) 0 0)
    (given : ∀ block, Adds (next (some block)) 0 (-1)) : Adds (malloc heap size >>= next) 0 0 :=
  adds_request_bind refused given

theorem gains_malloc_bind_none {α : Type} {heap : Heap} {size : Nat}
    {next : Option (CArray size) → Run Fault τ α} {world : World τ} {files blocks : Int}
    (refused : heap world.requests size = none) :
    Gains (malloc heap size >>= next) world files blocks ↔
      Gains (next none) world.countRequest files blocks :=
  gains_request_bind_none refused

theorem gains_malloc_bind_some {α : Type} {heap : Heap} {size : Nat} {block : CArray size}
    {next : Option (CArray size) → Run Fault τ α} {world : World τ} {files blocks : Int}
    (given : heap world.requests size = some block) :
    Gains (malloc heap size >>= next) world files blocks ↔
      Gains (next (some block)) (world.countRequest.hold 0 1) (files - 0) (blocks - 1) :=
  gains_request_bind_some given

theorem Projects.malloc_bind {α γ : Type} {heap : Heap} {size : Nat}
    {next : Option (CArray size) → Run Fault τ α} {view : α × τ → γ} {world : World τ}
    {result : Except Fault γ}
    (refused : heap world.requests size = none →
      Projects (next none) view world.countRequest result)
    (given : ∀ block, heap world.requests size = some block →
      Projects (next (some block)) view (world.countRequest.hold 0 1) result) :
    Projects (malloc heap size >>= next) view world result :=
  Projects.request_bind refused given

theorem malloc_bind_some {α : Type} {heap : Heap} {size : Nat} {block : CArray size}
    (world : World τ) (given : heap world.requests size = some block)
    (next : Option (CArray size) → Run Fault τ α) :
    (malloc heap size >>= next) world = next (some block) (world.countRequest.hold 0 1) :=
  request_bind_some world given next

mutual

/-- The blocks of a tree: every node is one, and so are its name and its
string. -/
def CJson.blocks : CJson → Nat
  | ⟨string, _, valuestring, child⟩ =>
      1 + string.toList.length + valuestring.toList.length + CJson.listBlocks child

def CJson.listBlocks : List CJson → Nat
  | [] => 0
  | item :: items => item.blocks + CJson.listBlocks items

end

theorem CJson.blocks_pos (json : CJson) : 0 < json.blocks := by
  cases json
  unfold CJson.blocks
  omega

/-- `cJSON_Parse`, where `parse` is the tree that it makes.  Without a result it
has given back all it took. -/
def cjsonParse (parse : Bytes → Option CJson) (text : Bytes) : Run Fault τ (Option CJson) :=
  match parse text with
  | none => pure none
  | some json => do
      own json.blocks
      pure (some json)

theorem cjsonParse_bind_none {α : Type} {parse : Bytes → Option CJson} {text : Bytes}
    (rejected : parse text = none) (next : Option CJson → Run Fault τ α) :
    cjsonParse parse text >>= next = next none := by
  rw [cjsonParse, rejected]
  rfl

theorem cjsonParse_bind_some {α : Type} {parse : Bytes → Option CJson} {text : Bytes}
    {json : CJson} (parsed : parse text = some json) (next : Option CJson → Run Fault τ α) :
    cjsonParse parse text >>= next = (own json.blocks >>= fun _ => next (some json)) := by
  rw [cjsonParse, parsed]
  rfl

end Calls

end OnlineProgram
