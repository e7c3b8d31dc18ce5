import ScriptVM.Bytecode.Chunk

/-!
# Function templates

A template is a chunk with an identity. All closures made from one function
literal share its template, and with it the inline caches filed under its
identity.
-/

namespace ScriptVM

/-- Identity of a template. -/
structure TemplateId where
  index : Nat
  deriving DecidableEq, Repr, Inhabited

/-- A function ready to run, with the functions nested in it. -/
structure Template where
  id : TemplateId
  chunk : Chunk
  nested : List Template

namespace Template

/-- The name of the function. -/
def name (template : Template) : String :=
  template.chunk.info.name

/-- The kind of the function. -/
def kind (template : Template) : FunctionKind :=
  template.chunk.info.kind

/-- The function is strict code. -/
def isStrict (template : Template) : Bool :=
  template.chunk.info.strict

/-- The instruction at an offset. -/
def instruction? (template : Template) (offset : Nat) : Option Instruction :=
  (template.chunk.code[offset]?).map PlacedInstruction.instruction

mutual

/-- The template of a chunk, with identities numbered from `next` on, and the
number of cache slots of every template made, in the order of identities. -/
def ofChunk (next : Nat) : Chunk -> Template × List Nat
  | { info, code, constants, registerCount, cacheSlots, functions } =>
      let chunk : Chunk := { info, code, constants, registerCount, cacheSlots, functions }
      let (nested, slots) := ofChunks (next + 1) functions
      ({ id := ⟨next⟩, chunk, nested }, cacheSlots :: slots)

/-- The templates of several chunks. -/
def ofChunks (next : Nat) : List Chunk -> List Template × List Nat
  | [] => ([], [])
  | chunk :: rest =>
      let (template, slots) := ofChunk next chunk
      let (templates, restSlots) := ofChunks (next + slots.length) rest
      (template :: templates, slots ++ restSlots)

end

end Template
end ScriptVM
