import SegmentFit.Command.Basic

/-!
# The comparison of two files of records

The command compares the records of two files and prints the first ten differences. Two
files agree, with exit code `0`, if there is no difference. A record that is nested too
deep is not read. A difference shows where it was found by the names of members as they
are; if a name has a surrogate, the line is one that not every sink takes, and the command
breaks off there.
-/

namespace SegmentFit.Session

def shownDifferences : Nat := 10

/-- How deep a record may be nested. Reading a list or an object is a call within a call, of which
the interpreter allows 1000 by default; this is what is left of them, as measured, to a command that
was called from nowhere else. -/
def nestingLimit : Nat := 988

def differenceLines (found : List Difference) : List CodeText :=
  (found.take shownDifferences).map
      (fun d => CodeText.ofString "  " ++ d.text ++ CodeText.ofString "\n")
    ++ (if shownDifferences < found.length then
      [CodeText.ofString s!"  ... and {found.length - shownDifferences} more differences\n"]
    else [])

/-- The records of two files, and their differences. -/
def differencesOf (s : Session) (left right : String) :
    Except CommandFault (Nat × List Difference) := do
  let a ← (s.tree.loadRecords nestingLimit left).mapError .load
  let b ← (s.tree.loadRecords nestingLimit right).mapError .load
  let found ← (compareRecords a b).mapError .record
  return (a.length, found)

/-- The ending and the output of a comparison that found differences. -/
def differ (sink : Sink) (heading : String) (found : List Difference) : Ending × CodeText :=
  let lines :=
    CodeText.ofString "\n✗ Differences:\n" :: differenceLines found
      ++ [CodeText.ofString "\n✗ RECEIPTS_DIFFER\n"]
  let (printed, fault) := sink.print lines
  let output := CodeText.ofString heading ++ printed
  match fault with
  | none => (.done 1, output)
  | some fault => (.broken (.output fault), output)

def compare (s : Session) (sink : Sink) (line : List String) : Transcript :=
  match line with
  | [left, right] =>
    let heading := s!"Comparing receipts:\n  A: {left}\n  B: {right}\n"
    match s.differencesOf left right with
    | .error fault => s.leaves (.broken fault) heading ""
    | .ok (count, []) =>
      s.leaves (.done 0) (heading ++ s!"✓ RECEIPTS_MATCH ({count} records)\n") ""
    | .ok (_, found) =>
      let (ending, output) := differ sink heading found
      s.leaves ending output ""
  | _ =>
    s.leaves (.done 1)
      "Usage: python scripts/check_receipts.py <file1.jsonl> <file2.jsonl>\n" ""

end SegmentFit.Session
