import LockUsage.Program.Validation

/-! Programs built step by step. Each step hands out the id of what it adds. -/

namespace LockUsage.Program

def empty (name : String) : Program := { name, globals := #[], functions := #[] }

def addGlobal (p : Program) (name : String) : Program × GlobalId :=
  ({ p with globals := p.globals.push name }, p.globals.size)

/-- Adds a function without a body. -/
def addFunction (p : Program) (name : String) (params : List String) : Program × FuncId :=
  ({ p with functions := p.functions.push { name, params, blocks := #[], insts := #[] } },
    p.functions.size)

def setFunction (p : Program) (func : FuncId) (f : Func) : Program :=
  { p with functions := p.functions.setIfInBounds func f }

/-- Adds an empty block. There is no id if the function is unknown. -/
def addBlock (p : Program) (func : FuncId) (name : String) : Program × Option BlockId :=
  match p.functions[func]? with
  | none => (p, none)
  | some f => (p.setFunction func { f with blocks := f.blocks.push ⟨name, []⟩ }, some f.blocks.size)

/-- Appends an instruction to a block. If the block is unknown the function keeps the instruction,
but no block lists it and there is no id. -/
def append (p : Program) (func : FuncId) (block : BlockId) (name : Option String)
    (kind : InstKind) : Program × Option InstId :=
  match p.functions[func]? with
  | none => (p, none)
  | some f =>
    let id := f.insts.size
    let insts := f.insts.push ⟨name, block, kind⟩
    match f.blocks[block]? with
    | none => (p.setFunction func { f with insts }, none)
    | some b =>
      let blocks := f.blocks.setIfInBounds block { b with insts := b.insts ++ [id] }
      (p.setFunction func { f with insts, blocks }, some id)

end LockUsage.Program
