import MeteredLedger.Config.Json

/-!
# Configuration

The chain's identifier and fork schedule, and the limits on execution. Both load from strict JSON,
where a setting that is not given keeps its default.
-/

namespace MeteredLedger

/-- The rules that hold at one block. -/
structure Rules where
  chainId : UInt64
  homestead : Bool
  deriving DecidableEq, Repr

/-- The identifier of a chain and the block at which the homestead rules start, if they ever do. -/
structure ChainConfig where
  chainId : UInt64 := 1
  homesteadBlock : Option UInt64 := some 0
  deriving DecidableEq, Repr

/-- The limits on execution. -/
structure Limits where
  /-- Whether nested calls are skipped and nested creations do not run. -/
  noRecursion : Bool := false
  maxCallDepth : Nat := 1024
  maxCodeSize : Nat := 24576
  deriving DecidableEq, Repr

namespace ChainConfig

def isHomestead (c : ChainConfig) (number : UInt64) : Bool :=
  match c.homesteadBlock with
  | some fork => decide (fork ≤ number)
  | none => false

def rules (c : ChainConfig) (number : UInt64) : Rules := ⟨c.chainId, c.isHomestead number⟩

/-- The block of a fork: a number, or null for never. -/
def forkBlock? : Json → Option (Option UInt64)
  | .null => some none
  | json => json.toUInt64?.map some

def ofJson? (json : Json) : Option ChainConfig := do
  let settings ← json.settings? ["chain_id", "homestead_block"]
  match settings with
  | [chainId, homesteadBlock] =>
    let chainId ← match chainId with
      | some json => json.toUInt64?
      | none => some ({} : ChainConfig).chainId
    let homesteadBlock ← match homesteadBlock with
      | some json => forkBlock? json
      | none => some ({} : ChainConfig).homesteadBlock
    return ⟨chainId, homesteadBlock⟩
  | _ => none

def load? (text : String) : Option ChainConfig := (Json.parse? text).bind ofJson?

def text (c : ChainConfig) : String :=
  let fork := match c.homesteadBlock with
    | some fork => s!"Some({fork})"
    | none => "None"
  s!"ChainConfig \x7b chain_id: {c.chainId}, homestead_block: {fork} \x7d"

end ChainConfig

namespace Limits

def ofJson? (json : Json) : Option Limits := do
  let settings ← json.settings? ["no_recursion", "max_call_depth", "max_code_size"]
  match settings with
  | [noRecursion, maxCallDepth, maxCodeSize] =>
    let noRecursion ← match noRecursion with
      | some json => json.toBool?
      | none => some ({} : Limits).noRecursion
    let maxCallDepth ← match maxCallDepth with
      | some json => json.toUInt64?.map UInt64.toNat
      | none => some ({} : Limits).maxCallDepth
    let maxCodeSize ← match maxCodeSize with
      | some json => json.toUInt64?.map UInt64.toNat
      | none => some ({} : Limits).maxCodeSize
    return ⟨noRecursion, maxCallDepth, maxCodeSize⟩
  | _ => none

def load? (text : String) : Option Limits := (Json.parse? text).bind ofJson?

def text (l : Limits) : String :=
  s!"VmConfig \x7b no_recursion: {l.noRecursion}, max_call_depth: {l.maxCallDepth}, " ++
    s!"max_code_size: {l.maxCodeSize} \x7d"

end Limits

end MeteredLedger
