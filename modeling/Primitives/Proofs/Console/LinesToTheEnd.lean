import Primitives.Proofs.Console.InputCalls
import Primitives.Proofs.Files.LineFiles

/-!
# Lines to the end of an input

A program that reads line by line until its input is used up gets the lines that a file with the same text is read
as. The two ways of parting a text into lines agree behind every newline, and differ only in a last line that no
newline ends: a carriage return at its end is kept on the console and dropped in a file.

## Main definitions

* `Unread.lines`: the lines of an unread text.
* `InputCall.UsesUp`: the lines that the calls give which use up an input.

## Main results

* `InputCall.usesUp_lines`: a console gives the lines of its unread text.
* `Unread.lines_cases`: the two ways of parting a text into lines.
* `FileSystem.readLines_console_lines`: files and consoles compared.
-/

namespace Primitives

/-! ### Lines of an unread text -/

namespace Unread

variable {body rest s : Text}

theorem line_of_notMem (h : '\n' ∉ s) : line s = (s, []) := by
  have hall : ∀ c ∈ s, (c != '\n') = true := by
    intro c hc
    simpa using ne_of_mem_of_not_mem hc h
  simp only [line, List.takeWhile_eq_self_iff.2 hall, List.dropWhile_eq_nil_iff.2 hall]

/-- The first of several lines loses its newline and a carriage return in front of that. -/
theorem line_append_newline (h : '\n' ∉ body) :
    line (body ++ '\n' :: rest) = (FileSystem.withoutReturn body, rest) := by
  have hall : ∀ c ∈ body, (c != '\n') = true := by
    intro c hc
    simpa using ne_of_mem_of_not_mem hc h
  simp only [line, List.takeWhile_append_of_pos hall, List.dropWhile_append_of_pos hall]
  simp [FileSystem.withoutReturn]

/-- A text has no newline, or it is a first line with its newline and what stands behind that. -/
theorem newline_cases (s : Text) : '\n' ∉ s ∨ ∃ body rest, s = body ++ '\n' :: rest ∧ '\n' ∉ body := by
  by_cases h : '\n' ∈ s
  · obtain ⟨body, rest, heq, hbody⟩ := List.eq_append_cons_of_mem h
    exact .inr ⟨body, rest, heq, hbody⟩
  · exact .inl h

theorem length_line_lt (h : s ≠ []) : (line s).2.length < s.length := by
  rcases newline_cases s with hs | ⟨body, rest, rfl, hbody⟩
  · rw [line_of_notMem hs]
    exact List.length_pos_iff.2 h
  · simp only [line_append_newline hbody, List.length_append, List.length_cons]
    omega

/-- The lines of a text, each read behind the one before until nothing is left. -/
def lines (s : Text) : List Text :=
  if s = [] then [] else (line s).1 :: lines (line s).2
termination_by s.length
decreasing_by exact length_line_lt (by assumption)

/-- The lines read one by one are those that a file is parted into, unless the text ends with a carriage return: then
the last one still has it. -/
theorem lines_cases (s : Text) :
    (s.getLast? ≠ some '\r' ∧ FileSystem.lines s = lines s) ∨
      s.getLast? = some '\r' ∧ ∃ front last, lines s = front ++ [last ++ ['\r']] ∧
        FileSystem.lines s = front ++ [last] := by
  fun_induction lines s with
  | case1 => exact .inl ⟨by simp, FileSystem.lines_nil⟩
  | case2 s hne ih =>
    rcases newline_cases s with hs | ⟨body, rest, rfl, hbody⟩
    · rw [line_of_notMem hs, FileSystem.lines_of_notMem hne hs]
      rw [lines, if_pos rfl]
      by_cases hlast : s.getLast? = some '\r'
      · obtain ⟨last, rfl⟩ := List.getLast?_eq_some_iff.1 hlast
        exact .inr ⟨hlast, [], last, rfl, by simp [FileSystem.withoutReturn]⟩
      · exact .inl ⟨hlast, by rw [FileSystem.withoutReturn_eq_self_iff.2 hlast]⟩
    · rw [line_append_newline hbody] at ih ⊢
      rw [FileSystem.lines_append_newline, Text.split_of_notMem hbody, List.map_singleton, List.singleton_append]
      have hend : (body ++ '\n' :: rest).getLast? = some '\r' ↔ rest.getLast? = some '\r' := by
        rw [List.getLast?_append_of_ne_nil _ (List.cons_ne_nil _ _)]
        cases rest with
        | nil => simp
        | cons c rest => rw [List.getLast?_cons_cons]
      rcases ih with ⟨hlast, heq⟩ | ⟨hlast, front, last, heq, heq'⟩
      · exact .inl ⟨mt hend.1 hlast, by rw [heq]⟩
      · exact .inr ⟨hend.2 hlast, _ :: front, last, by rw [heq, List.cons_append], by rw [heq', List.cons_append]⟩

end Unread

/-! ### Calls to the end of an input -/

namespace InputCall

open Primitives.Action

variable [Surroundings] {session next : Session} {s : Text} {ls : List Text}

/-- As many calls for a line as it takes to use up the unread text give these lines. -/
structure UsesUp (session : Session) (ls : List Text) : Prop where
  outcomes : (runAll act (List.replicate ls.length line) session).1 = ls.map fun s => .ok (.text s)
  nothingLeft : (runAll act (List.replicate ls.length line) session).2.console.reader.unread = []
  before : ∀ n < ls.length, (runAll act (List.replicate n line) session).2.console.reader.unread ≠ []

namespace UsesUp

theorem nil (h : session.console.reader.unread = []) : UsesUp session [] where
  outcomes := rfl
  nothingLeft := h
  before n hn := absurd hn (Nat.not_lt_zero n)

/-- A call that has something to read, and the calls behind it. -/
theorem cons (hunread : session.console.reader.unread ≠ []) (hcall : line.act.runOn session = (.ok (.text s), next))
    (h : UsesUp next ls) : UsesUp session (s :: ls) := by
  have hrun : ∀ n, runAll act (List.replicate (n + 1) line) session =
      (.ok (.text s) :: (runAll act (List.replicate n line) next).1, (runAll act (List.replicate n line) next).2) := by
    intro n
    rw [List.replicate_succ, runAll, hcall]
  refine ⟨?_, ?_, fun n hn => ?_⟩
  · rw [List.length_cons, hrun, h.outcomes, List.map_cons]
  · rw [List.length_cons, hrun]
    exact h.nothingLeft
  · cases n with
    | zero => exact hunread
    | succ n =>
      rw [hrun]
      exact h.before n (Nat.lt_of_succ_lt_succ hn)

/-- There is one number of calls that uses up an input, and they give one list. -/
theorem unique {ls' : List Text} (h : UsesUp session ls) (h' : UsesUp session ls') : ls = ls' := by
  have hlength : ls.length = ls'.length := by
    rcases Nat.lt_trichotomy ls.length ls'.length with hlt | heq | hlt
    · exact absurd h.nothingLeft (h'.before _ hlt)
    · exact heq
    · exact absurd h'.nothingLeft (h.before _ hlt)
  have houtcomes := h.outcomes
  rw [hlength, h'.outcomes] at houtcomes
  refine (List.map_injective_iff.2 (fun s t heq => ?_) houtcomes).symm
  exact Value.text.inj (Except.ok.inj heq)

end UsesUp

/-- A call at the start of a text reads its first line. -/
theorem runOn_line (session : Session) (input : Text) :
    line.act.runOn (session.withInput input) =
      (.ok (.text (Unread.line input).1), session.withInput (Unread.line input).2) := by
  have hread := Reader.readLine_eq (Reader.wellFormed_ofText input)
  rw [act, runOn_map, readLine, onReader, runOn_onConsole]
  simp only [Session.withInput, hread, Reader.unread_ofText, Outcome.map_ok]

/-- A console gives the lines of its input. -/
theorem usesUp_lines (session : Session) (input : Text) : UsesUp (session.withInput input) (Unread.lines input) := by
  fun_induction Unread.lines input with
  | case1 => exact .nil rfl
  | case2 input hne ih => exact .cons hne (runOn_line session input) ih

end InputCall

namespace FileSystem

open Surroundings

/-- **Files and consoles part a text into the same lines.** Calls for a line use up any input. A file that holds the
same text in one of the standard character sets, as any text of Latin-1 is held by some bytes, is read as the lines
that they give, unless the text ends with a carriage return: then there are as many lines, and only the last one
differs, which the console gives with this carriage return and the file without it. -/
theorem readLines_console_lines [Surroundings] (content : Text) (session : Session) :
    ((∀ c ∈ content, c.toNat < 256) → ∃ bytes, StandardCharset.latin1.encode content = .ok bytes) ∧
    (∃ ls, InputCall.UsesUp (session.withInput content) ls) ∧
    ∀ ls, InputCall.UsesUp (session.withInput content) ls →
      ∀ encoding (charset : StandardCharset) bytes host path, encoding? encoding = some (.text charset.toCharset) →
        charset.encode content = .ok bytes → host.disk.HoldsFile path bytes →
          (content.getLast? ≠ some '\r' → ((readLines encoding path).run host).1 = .ok ls) ∧
          (content.getLast? = some '\r' → ∃ front last, ls = front ++ [last ++ ['\r']] ∧
            ((readLines encoding path).run host).1 = .ok (front ++ [last])) := by
  have hcalls := InputCall.usesUp_lines session content
  refine ⟨fun hlatin => ⟨_, StandardCharset.encodeSingle_ok_iff.2 ⟨hlatin, rfl⟩⟩, ⟨_, hcalls⟩, ?_⟩
  intro ls hls encoding charset bytes host path hnamed hencode hholds
  obtain rfl := hcalls.unique hls
  have hdecode := StandardCharset.toCharset_decode_ok_iff.2 (StandardCharset.decode_of_encode hencode)
  rw [run_readLines_of_holds hnamed hdecode hholds]
  rcases Unread.lines_cases content with ⟨hlast, heq⟩ | ⟨hlast, front, last, heq, heq'⟩
  · exact ⟨fun _ => by rw [heq], fun hreturn => absurd hreturn hlast⟩
  · exact ⟨fun hne => absurd hlast hne, fun _ => ⟨front, last, heq, by rw [heq']⟩⟩

/-- Two lines of which the last one has a carriage return at the end of the text. -/
theorem readLines_console_lines_return :
    ∃ host : Host, host.disk.HoldsFile ['a'] [120, 13, 10, 121, 13] ∧
      InputCall.UsesUp ((Session.fresh ⟨.empty, .root⟩).withInput "x\r\ny\r") [['x'], ['y', '\r']] ∧
      ((readLines "latin-1" ['a']).run host).1 = .ok [['x'], ['y']] := by
  let disk : Disk := ⟨FileTree.empty.put [['a']] (.file FileTree.fileMode [120, 13, 10, 121, 13]), .root⟩
  have hplace : disk.place ['a'] = .ok ([['a']], some (.file FileTree.fileMode [120, 13, 10, 121, 13])) :=
    Disk.place_name rfl (by decide) (by decide)
  have hholds : disk.HoldsFile ['a'] [120, 13, 10, 121, 13] :=
    ⟨by decide, _, _, Disk.resolve_of_place_file FileTree.Purpose.look_ne_write hplace⟩
  have hnamed : encoding? "latin-1" = some (.text StandardCharset.latin1.toCharset) := rfl
  have hencode : StandardCharset.latin1.encode "x\r\ny\r" = .ok [120, 13, 10, 121, 13] := rfl
  have hlines : lines "x\r\ny\r" = [['x'], ['y']] := by cbv
  have hread : ((readLines "latin-1" ['a']).run (.ofDisk disk)).1 = .ok (lines "x\r\ny\r") :=
    run_readLines_of_holds hnamed rfl hholds
  rw [hlines] at hread
  obtain ⟨-, ⟨ls, hcalls⟩, hfiles⟩ := readLines_console_lines "x\r\ny\r" (.fresh ⟨.empty, .root⟩)
  obtain ⟨-, hreturn⟩ := hfiles ls hcalls _ _ _ (.ofDisk disk) _ hnamed hencode hholds
  obtain ⟨front, last, rfl, hparts⟩ := hreturn (by decide)
  obtain ⟨rfl, rfl⟩ : front = [['x']] ∧ last = ['y'] := by
    have heq : front ++ [last] = [['x']] ++ [['y']] := Except.ok.inj (hparts.symm.trans hread)
    simpa using List.append_inj' heq rfl
  exact ⟨.ofDisk disk, hholds, hcalls, hread⟩

end FileSystem

end Primitives
