/-!
The x86 registers that an operand may name: general purpose ones of 32, 16 and 8 bits, segment registers and MMX
registers. A family is the 32-bit register that a general purpose register is a part of.
-/

namespace InlineAsm

inductive Register where
  | eax | ebx | ecx | edx | esi | edi | ebp | esp
  | ax | bx | cx | dx | si | di | bp | sp
  | al | ah | bl | bh | cl | ch | dl | dh
  | cs | ds | es | fs | gs | ss
  | mm0 | mm1 | mm2 | mm3 | mm4 | mm5 | mm6 | mm7
  deriving DecidableEq, Repr

namespace Register

def all : List Register :=
  [eax, ebx, ecx, edx, esi, edi, ebp, esp, ax, bx, cx, dx, si, di, bp, sp, al, ah, bl, bh, cl, ch, dl, dh,
   cs, ds, es, fs, gs, ss, mm0, mm1, mm2, mm3, mm4, mm5, mm6, mm7]

def name : Register → String
  | eax => "eax" | ebx => "ebx" | ecx => "ecx" | edx => "edx"
  | esi => "esi" | edi => "edi" | ebp => "ebp" | esp => "esp"
  | ax => "ax" | bx => "bx" | cx => "cx" | dx => "dx"
  | si => "si" | di => "di" | bp => "bp" | sp => "sp"
  | al => "al" | ah => "ah" | bl => "bl" | bh => "bh"
  | cl => "cl" | ch => "ch" | dl => "dl" | dh => "dh"
  | cs => "cs" | ds => "ds" | es => "es" | fs => "fs" | gs => "gs" | ss => "ss"
  | mm0 => "mm0" | mm1 => "mm1" | mm2 => "mm2" | mm3 => "mm3"
  | mm4 => "mm4" | mm5 => "mm5" | mm6 => "mm6" | mm7 => "mm7"

def ofName? (s : String) : Option Register := all.find? fun r => r.name == s

/-- The size in bits. -/
def width : Register → Nat
  | eax | ebx | ecx | edx | esi | edi | ebp | esp => 32
  | ax | bx | cx | dx | si | di | bp | sp => 16
  | al | ah | bl | bh | cl | ch | dl | dh => 8
  | cs | ds | es | fs | gs | ss => 16
  | mm0 | mm1 | mm2 | mm3 | mm4 | mm5 | mm6 | mm7 => 64

def isSegment : Register → Bool
  | cs | ds | es | fs | gs | ss => true
  | _ => false

def isMMX : Register → Bool
  | mm0 | mm1 | mm2 | mm3 | mm4 | mm5 | mm6 | mm7 => true
  | _ => false

def isGeneralPurpose (r : Register) : Bool := !r.isSegment && !r.isMMX

/-- Segment and MMX registers are families of their own. -/
def family : Register → Register
  | eax | ax | al | ah => eax
  | ebx | bx | bl | bh => ebx
  | ecx | cx | cl | ch => ecx
  | edx | dx | dl | dh => edx
  | esi | si => esi
  | edi | di => edi
  | ebp | bp => ebp
  | esp | sp => esp
  | r => r

def isAccumulator (r : Register) : Bool := r.family = eax

def isBase (r : Register) : Bool := r.family = ebx

def isCounter (r : Register) : Bool := r.family = ecx

def isData (r : Register) : Bool := r.family = edx

def isSourceIndex (r : Register) : Bool := r.family = esi

def isDestinationIndex (r : Register) : Bool := r.family = edi

def isStackPointer (r : Register) : Bool := r.family = esp

def isBasePointer (r : Register) : Bool := r.family = ebp

/-- The register that a block touching this one has to declare as overwritten. The segment registers and the two
registers of the stack frame can not be declared. -/
def clobber? (r : Register) : Option Register :=
  if r.isSegment || r.isStackPointer || r.isBasePointer then none else some r.family

end Register

end InlineAsm
