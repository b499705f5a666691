import MeteredVm.Instruction.Basic

/-!
The names of instructions and their parts: those by which a decoded instruction is shown, and the words by which an
assembly text asks for branches and computations.
-/

set_option autoImplicit false
set_option relaxedAutoImplicit false

namespace MeteredVm

def LoadKind.name : LoadKind → String
  | .u8 => "U8"
  | .i8 => "I8"
  | .u16 => "U16"
  | .i16 => "I16"
  | .u32 => "U32"
  | .i32 => "I32"
  | .u64 => "U64"

def LoadKind.ofName? (name : String) : Option LoadKind := all.find? fun kind => kind.name == name

def StoreKind.name : StoreKind → String
  | .u8 => "U8"
  | .u16 => "U16"
  | .u32 => "U32"
  | .u64 => "U64"

def StoreKind.ofName? (name : String) : Option StoreKind := all.find? fun kind => kind.name == name

def BranchCondition.name : BranchCondition → String
  | .eq => "Eq"
  | .ne => "Ne"
  | .ltU => "LtU"
  | .geU => "GeU"

/-- The word for a branch on a condition. -/
def BranchCondition.word : BranchCondition → String
  | .eq => "branch_eq"
  | .ne => "branch_ne"
  | .ltU => "branch_lt_u"
  | .geU => "branch_ge_u"

def BranchCondition.ofWord? (word : String) : Option BranchCondition := all.find? fun c => c.word == word

def AluOp.name : AluOp → String
  | .add32 => "Add32"
  | .sub32 => "Sub32"
  | .add64 => "Add64"
  | .sub64 => "Sub64"
  | .mul64 => "Mul64"
  | .and => "And"
  | .xor => "Xor"
  | .or => "Or"

def AluOp.word : AluOp → String
  | .add32 => "add_32"
  | .sub32 => "sub_32"
  | .add64 => "add_64"
  | .sub64 => "sub_64"
  | .mul64 => "mul_64"
  | .and => "and"
  | .xor => "xor"
  | .or => "or"

def AluOp.ofWord? (word : String) : Option AluOp := all.find? fun op => op.word == word

/-- The name of an instruction, apart from its operands. -/
def Mnemonic.name : Mnemonic → String
  | .trap => "Trap"
  | .fallthrough => "Fallthrough"
  | .ecalli => "Ecalli"
  | .loadImm64 => "LoadImm64"
  | .jump => "Jump"
  | .jumpInd => "JumpInd"
  | .loadImm => "LoadImm"
  | .load _ => "Load"
  | .store _ => "Store"
  | .moveReg => "MoveReg"
  | .sbrk => "Sbrk"
  | .storeInd _ => "StoreInd"
  | .loadInd _ => "LoadInd"
  | .addImm64 => "AddImm64"
  | .branch _ => "Branch"
  | .alu _ => "Alu"

end MeteredVm
