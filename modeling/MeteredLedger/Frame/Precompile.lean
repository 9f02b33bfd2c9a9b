import MeteredLedger.Digest.Ripemd160
import MeteredLedger.Digest.Sha256
import MeteredLedger.Frame.Basic

/-!
# Precompiled contracts

Functions that live at fixed addresses and run in place of code. Each costs gas by the size of its
input, paid before it runs.
-/

namespace MeteredLedger

/-- A function that runs in place of code, with its price for an input. -/
structure Precompile where
  requiredGas : Bytes → Gas
  compute : Bytes → Except Fault Bytes

namespace Precompile

/-- A price per started word of input on top of a base. -/
def wordGas (base perWord : Nat) (input : Bytes) : Gas :=
  Gas.clamp (base + (input.length + 31) / 32 * perWord)

def sha256 : Precompile where
  requiredGas := wordGas 60 12
  compute input := .ok (MeteredLedger.sha256 input).toBytes

/-- The RIPEMD-160 digest, at the end of a word. -/
def ripemd160 : Precompile where
  requiredGas := wordGas 600 120
  compute input := .ok (List.replicate 12 0 ++ MeteredLedger.ripemd160 input)

def identity : Precompile where
  requiredGas := wordGas 15 3
  compute input := .ok input

def fixed (gas : Gas) (output : Bytes) : Precompile where
  requiredGas _ := gas
  compute _ := .ok output

def failing (gas : Gas) (fault : Fault) : Precompile where
  requiredGas _ := gas
  compute _ := .error fault

def run (p : Precompile) (input : Bytes) (f : Frame) : Except Fault Bytes × Frame :=
  match f.pay? (p.requiredGas input) with
  | some f => (p.compute input, f)
  | none => (.error .outOfGas, f)

end Precompile

abbrev PrecompileSet := Std.ExtTreeMap Address Precompile

namespace PrecompileSet

/-- The contracts that every chain has. -/
def standard : PrecompileSet :=
  ((∅ : PrecompileSet).insert 2 .sha256 |>.insert 3 .ripemd160).insert 4 .identity

def text (s : PrecompileSet) : String :=
  "\x7b" ++ ", ".intercalate (s.keys.map fun a => Bytes.decimalList a.toBytes) ++ "\x7d"

end PrecompileSet

end MeteredLedger
