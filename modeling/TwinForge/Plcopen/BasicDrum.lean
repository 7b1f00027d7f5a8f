import Mathlib.Algebra.Group.Nat.Defs
import TwinForge.Foundation.BlockBody
import TwinForge.Foundation.Scans

/-! # The Machine Expert - Basic drum block

The plain body of the drum writes its control bits to in-out variables; the second body is
derived from its text by a substitution that writes each bit through a reference. Both are
read as bodies of statements, tied to their source lines, and both run the same sequencer.
-/

namespace TwinForge.Plcopen

open BlockBody Scans

inductive DrumName where
  | reset | u | nsteps | pattern | f | stepNo | uLast | write | current
  | control (bit : Fin 16)
  | reference (bit : Fin 16)
  deriving DecidableEq

def DrumName.spell : DrumName → Text
  | .reset => "RESET"
  | .u => "U"
  | .nsteps => "NSTEPS"
  | .pattern => "PATTERN"
  | .f => "F"
  | .stepNo => "STEP_NO"
  | .uLast => "U_LAST"
  | .write => "WRITE"
  | .current => "CURRENT"
  | .control bit => ("B" : Text) ++ decimal bit
  | .reference bit => ("refB" : Text) ++ decimal bit

/-- The lines of the body after its comment, no line of which starts with four blanks. -/
def drumBody : List Text := [
    "WRITE := FALSE;",
    "IF RESET THEN",
    "    STEP_NO := 0;",
    "    WRITE := TRUE;",
    "ELSIF U AND NOT U_LAST THEN",
    "    IF STEP_NO >= NSTEPS - 1 THEN",
    "        STEP_NO := 0;",
    "    ELSE",
    "        STEP_NO := STEP_NO + 1;",
    "    END_IF;",
    "    WRITE := TRUE;",
    "END_IF;",
    "U_LAST := U;",
    "IF WRITE THEN",
    "    CURRENT := PATTERN[STEP_NO];",
    "    B0 := (CURRENT AND WORD#16#0001) <> WORD#0;",
    "    B1 := (CURRENT AND WORD#16#0002) <> WORD#0;",
    "    B2 := (CURRENT AND WORD#16#0004) <> WORD#0;",
    "    B3 := (CURRENT AND WORD#16#0008) <> WORD#0;",
    "    B4 := (CURRENT AND WORD#16#0010) <> WORD#0;",
    "    B5 := (CURRENT AND WORD#16#0020) <> WORD#0;",
    "    B6 := (CURRENT AND WORD#16#0040) <> WORD#0;",
    "    B7 := (CURRENT AND WORD#16#0080) <> WORD#0;",
    "    B8 := (CURRENT AND WORD#16#0100) <> WORD#0;",
    "    B9 := (CURRENT AND WORD#16#0200) <> WORD#0;",
    "    B10 := (CURRENT AND WORD#16#0400) <> WORD#0;",
    "    B11 := (CURRENT AND WORD#16#0800) <> WORD#0;",
    "    B12 := (CURRENT AND WORD#16#1000) <> WORD#0;",
    "    B13 := (CURRENT AND WORD#16#2000) <> WORD#0;",
    "    B14 := (CURRENT AND WORD#16#4000) <> WORD#0;",
    "    B15 := (CURRENT AND WORD#16#8000) <> WORD#0;",
    "END_IF;",
    "F := STEP_NO = NSTEPS - 1;"]

/-- One line under the substitution `^    (B(\d+)) := (.*);$`. -/
def throughReferenceLine (line : Text) : List Text :=
  match line with
  | ' ' :: ' ' :: ' ' :: ' ' :: 'B' :: rest =>
    let digits := rest.takeWhile Char.isDigit
    match digits, (rest.dropWhile Char.isDigit).dropPrefix? (" := " : Text) with
    | _ :: _, some value =>
      if value.getLast? = some ';' then
        let control := 'B' :: digits
        [("    IF __ISVALIDREF(ref" : Text) ++ control ++ (") THEN" : Text),
          ("        ref" : Text) ++ control ++ (" := " : Text) ++ value.dropLast ++ (";" : Text),
          "    END_IF;"]
      else [line]
    | _, _ => [line]
  | _ => [line]

def throughReferences (body : List Text) : List Text := body.flatMap throughReferenceLine

def maskSpelling (bit : Fin 16) : Text :=
  ("WORD#16#" : Text) ++ List.replicate (3 - bit / 4) '0' ++
    decimal (2 ^ (bit % 4 : Nat)) ++ List.replicate (bit / 4) '0'

def controlWrite (bit : Fin 16) : DrumName × Term DrumName :=
  (.control bit,
    .binary
      (.parenthesized (.binary (.name .current) .and
        (.word (maskSpelling bit) (BitVec.twoPow 16 bit))))
      .different (.word "WORD#0" 0#16))

def controlWrites : Body DrumName := assigns ((List.finRange 16).map controlWrite) .done

def lastStep : Term DrumName := .binary (.name .nsteps) .minus (.int 1)

def drumStatements : Body DrumName :=
  .assign .write (.bool false) <|
  .branch
    (.when (.name .reset)
      (.assign .stepNo (.int 0) <| .assign .write (.bool true) .done)
      (.when (.binary (.name .u) .and (.not (.name .uLast)))
        (.branch
          (.when (.binary (.name .stepNo) .atLeast lastStep)
            (.assign .stepNo (.int 0) .done)
            (.otherwise (.assign .stepNo (.binary (.name .stepNo) .plus (.int 1)) .done)))
          (.assign .write (.bool true) .done))
        .last)) <|
  .assign .uLast (.name .u) <|
  .branch
    (.when (.name .write)
      (.assign .current (.element .pattern (.name .stepNo)) controlWrites) .last) <|
  .assign .f (.binary (.name .stepNo) .equal lastStep) .done

def toReference : DrumName → Option DrumName
  | .control bit => some (.reference bit)
  | _ => none

theorem drumBody_lines : drumBody = drumStatements.lines DrumName.spell 0 := by
  decide +kernel

theorem throughReferences_lines :
    throughReferences drumBody =
      (drumStatements.through toReference).lines DrumName.spell 0 := by
  rw [drumBody_lines]
  decide +kernel

end TwinForge.Plcopen
