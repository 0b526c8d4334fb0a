/-
The lock of the Semgrep packs. A pack is cut into rules at the lines that
name one, and locked by a digest of the rules in the order of their names, its
size and their number.
-/
import AgentHarness.Lib.Except
import AgentHarness.Lib.LineEnds
import AgentHarness.Lib.Sha256
import AgentHarness.Lib.Text
import Mathlib.Data.List.DropRight

namespace AgentHarness.Scripts

open Text Except LineEnds

structure PackError where
  message : String
  deriving DecidableEq, Repr

/-- `8 * 1024 * 1024`. -/
def maxPackBytes : Nat := 8388608

/-- What `bytes.strip` takes off. -/
def isSpace (b : UInt8) : Bool := b == 0x20 || 0x09 ≤ b && b ≤ 0x0d

def strip (bytes : Bytes) : Bytes := (bytes.dropWhile isSpace).rdropWhile isSpace

def rulesHeader : Bytes := utf8 "rules:\n"

def ruleMarker : Bytes := utf8 "- id: "

/-! ## The rules of a pack -/

/-- The blocks so far, and the one that is being read. -/
structure Parsing where
  blocks : List (Bytes × Bytes)
  currentId : Option Bytes
  currentLines : List Bytes

namespace Parsing

def initial : Parsing where
  blocks := []
  currentId := none
  currentLines := []

/-- The blocks, with the one that is being read. -/
def flush (p : Parsing) : List (Bytes × Bytes) :=
  match p.currentId with
  | some id => p.blocks ++ [(id, p.currentLines.flatten)]
  | none => p.blocks

def line (packId : String) (p : Parsing) (line : Bytes) : Except PackError Parsing :=
  if ruleMarker.isPrefixOf line then do
    let currentId := strip (line.drop ruleMarker.length)
    rejectIf currentId.isEmpty ⟨s!"Semgrep pack {packId} contains a blank rule id"⟩
    return { blocks := p.flush, currentId := some currentId, currentLines := [line] }
  else
    match p.currentId with
    | none => do
      rejectIf (!(strip line).isEmpty) ⟨s!"Semgrep pack {packId} has content before its first rule"⟩
      return p
    | some _ => return { p with currentLines := p.currentLines ++ [line] }

end Parsing

def parseRuleBlocks (packId : String) (content : Bytes) : Except PackError (List (Bytes × Bytes)) := do
  let p ← (splitLines content).tail.foldlM (Parsing.line packId) .initial
  rejectIf p.flush.isEmpty ⟨s!"Semgrep pack {packId} does not contain rules"⟩
  return p.flush

/-- The blocks, in the order of their ids. -/
def sortedBlocks (blocks : List (Bytes × Bytes)) : List (Bytes × Bytes) := blocks.mergeSort fun a b => decide (a.1 ≤ b.1)

def canonicalForm (blocks : List (Bytes × Bytes)) : Bytes := rulesHeader ++ ((sortedBlocks blocks).map (·.2)).flatten

/-! ## The lock -/

/-- The digest, the size and the number of rules. -/
def validatePackContent (packId : String) (content : Bytes) : Except PackError (String × Nat × Nat) := do
  rejectIf (!rulesHeader.isPrefixOf content) ⟨s!"Semgrep pack {packId} is not a rules YAML document"⟩
  rejectIf (content.length > maxPackBytes) ⟨s!"Semgrep pack {packId} exceeds {maxPackBytes} bytes"⟩
  let blocks ← parseRuleBlocks packId content
  let ruleIds := blocks.map (·.1)
  rejectIf (ruleIds.dedup.length != ruleIds.length) ⟨s!"Semgrep pack {packId} contains duplicate rule ids"⟩
  return (Sha256.hexdigest (canonicalForm blocks), content.length, blocks.length)

/-- A pack as the manifest has it. -/
structure Pack where
  id : String
  file : String
  canonicalSha256 : String
  bytes : Nat
  rules : Nat
  deriving DecidableEq, Repr

/-- The files of the packs, once each is what the manifest says. -/
def verifyPacks (readPack : String → Except PackError Bytes) : List Pack → Except PackError (List String)
  | [] => return []
  | pack :: packs => do
    let packId := pack.id
    let (pinned, bytes, count) := (pack.canonicalSha256, pack.bytes, pack.rules)
    let content ← readPack pack.file
    let (digest, size, rules) ← validatePackContent packId content
    rejectIf (digest != pinned || size != bytes || rules != count)
      ⟨s!"Semgrep pack integrity differs for {packId}: expected canonicalSha256={pinned} bytes={bytes} " ++
        s!"rules={count}, got canonicalSha256={digest} bytes={size} rules={rules}"⟩
    return pack.file :: (← verifyPacks readPack packs)

end AgentHarness.Scripts
