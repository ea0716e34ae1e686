import Primitives.Proofs.Codec.StandardCharset
import Primitives.Proofs.Files.Outlines
import Primitives.Proofs.Files.Removals
import Primitives.Surroundings.Standard

/-!
# Whole files

A path that a file was written to leads to that file when it is looked at afterwards: it holds the tree
that the path was opened in, in outline, and the file is at the location that was opened. With the round
trips of the standard character sets, the text that was written is read back, and a text that was read is
written as the bytes that it came from.

## Main definitions

* `Disk.HoldsFile`: a path that leads to a file with the given bytes.

## Main results

* `Host.run_readBytes_of_holds`, `Host.run_readBytes_of_not_holds`: the bytes of a file.
* `FileSystem.wholeFiles_roundTrip`: texts written and read back, and bytes read and written again.
-/

namespace Primitives

open FileTree

/-! ### Files that a path leads to -/

namespace Disk

variable {disk disk' : Disk} {path : Text} {bytes : Bytes}

/-- A path that leads to a file with the given bytes. -/
def HoldsFile (disk : Disk) (path : Text) (bytes : Bytes) : Prop :=
  Request.hasNull path = false ∧
    ∃ p mode, disk.resolve .look path = .ok (.file p mode bytes)

theorem HoldsFile.unique {bytes' : Bytes} (h : disk.HoldsFile path bytes)
    (h' : disk.HoldsFile path bytes') : bytes = bytes' := by
  obtain ⟨-, p, mode, hresolve⟩ := h
  obtain ⟨-, p', mode', hresolve'⟩ := h'
  simpa using (hresolve.symm.trans hresolve' |> Except.ok.inj |> Target.file.inj).2.2

theorem outcome_single {α : Type} {f : Disk → Except Errno α} {a : α} :
    Request.outcome [path] f disk = .ok a ↔ Request.hasNull path = false ∧ f disk = .ok a := by
  unfold Request.outcome
  cases hnull : Request.hasNull path with
  | true => simp [hnull]
  | false => cases hf : f disk <;> simp [hnull]

/-- The bytes of a file are read from the paths that lead to it. -/
theorem outcome_readBytes_iff :
    Request.outcome [path] (·.readBytes path) disk = .ok bytes ↔ disk.HoldsFile path bytes := by
  rw [outcome_single, HoldsFile, readBytes]
  refine and_congr_right fun _ => ?_
  cases disk.resolve .look path with
  | error errno => simp
  | ok target => cases target <;> simp

theorem HoldsFile.outcome_status (h : disk.HoldsFile path bytes) :
    ∃ mode, Request.outcome [path] (·.status path true) disk = .ok (.file mode bytes.length) := by
  obtain ⟨hnull, p, mode, hresolve⟩ := h
  refine ⟨mode, outcome_single.2 ⟨hnull, ?_⟩⟩
  simp [status, hresolve]

/-- The path that bytes were written to leads to a file with them. -/
theorem holdsFile_of_writeBytes
    (h : Request.outcome [path] (·.writeBytes path bytes false) disk = .ok disk') :
    disk'.HoldsFile path bytes := by
  obtain ⟨hnull, hwrite⟩ := outcome_single.1 h
  obtain ⟨target, p, hresolve, hopened, rfl⟩ := writeBytes_ok_iff.1 hwrite
  rw [Target.held_false, List.nil_append]
  exact ⟨hnull, p, _, resolve_put_opened (resolve_look_of_write hresolve) hopened _ _⟩

/-- A file is created at a place that holds nothing, by a path that asks for no directory. -/
theorem writeBytes_of_place_none {p : Location} (hplace : disk.place path = .ok (p, none))
    (hfile : asksForDirectory path = false) (bytes : Bytes) (append : Bool) :
    disk.writeBytes path bytes append =
      .ok { disk with tree := disk.tree.put p (.file FileTree.fileMode bytes) } := by
  obtain ⟨links, parent, n, -, -, -, hn, hlookup, hresolve⟩ := exists_walk_of_place hplace
  rw [writeBytes, hresolve .write, walk_name _ _ _ _ hn, hlookup, hfile]
  rfl

end Disk

/-! ### Requests for whole files -/

open Surroundings

theorem Charset.named_of_encoding? [Surroundings] {encoding : Text} {charset : Charset}
    (h : encoding? encoding = some (.text charset)) (verb : Text) :
    Charset.named encoding verb = .ok charset := by
  rw [Charset.named, h]

namespace Host

variable {host : Host} {path : Text} {bytes : Bytes}

theorem run_readBytes_of_holds (h : host.disk.HoldsFile path bytes) :
    (readBytes path).run host = (.success bytes "read", host) := by
  have hlook := Request.runOn_look [path] (·.readBytes path) host
  rw [Disk.outcome_readBytes_iff.2 h] at hlook
  exact run_guarded_of_ok hlook "read" path

theorem run_readBytes_of_not_holds (h : ∀ bytes, ¬ host.disk.HoldsFile path bytes) :
    ∃ f log, (readBytes path).run host = (.failure f, { host with log }) := by
  have hlook := Request.runOn_look [path] (·.readBytes path) host
  cases houtcome : Request.outcome [path] (·.readBytes path) host.disk with
  | ok bytes => exact absurd (Disk.outcome_readBytes_iff.1 houtcome) (h bytes)
  | error e =>
    rw [houtcome] at hlook
    obtain ⟨f, log, -, hrun⟩ := run_guarded_of_error hlook "read" path
    exact ⟨f, log, hrun⟩

theorem run_map_of_run {α β : Type} {step : HostM α} {a : α} {host' : Host}
    (h : step.run host = (a, host')) (f : α → β) : (f <$> step).run host = (f a, host') := by
  rw [StateT.run_map, h]
  rfl

variable [Surroundings] {encoding content : Text} {charset : Charset} {fault : EncodingFault} {append : Bool}

theorem run_readText_of_not_holds (h : ∀ bytes, ¬ host.disk.HoldsFile path bytes) (encoding : Text) :
    ∃ f log, (readText path encoding).run host = (.ok (.failure f), { host with log }) := by
  obtain ⟨f, log, hread⟩ := run_readBytes_of_not_holds h
  exact ⟨f, log, run_bind_of_run hread _⟩

/-- An empty file is read without its encoding. -/
theorem run_readText_of_empty (h : host.disk.HoldsFile path []) (encoding : Text) :
    (readText path encoding).run host = (.ok (.success [] "read"), host) :=
  run_bind_of_run (run_readBytes_of_holds h) _

/-- The bytes of a file that is not empty are not read without a character set. -/
theorem run_readText_of_fault (h : host.disk.HoldsFile path bytes) (hbytes : bytes ≠ [])
    (hfault : Charset.named encoding "decode" = .error fault) :
    (readText path encoding).run host = (.error fault, host) := by
  have hempty : bytes.isEmpty = false := by simpa using hbytes
  rw [readText, run_bind_of_run (run_readBytes_of_holds h)]
  simp only [hempty, hfault]
  rfl

/-- A file is read as the text that its bytes stand for, or not at all. -/
theorem run_readText_of_charset (h : host.disk.HoldsFile path bytes)
    (hcharset : Charset.named encoding "decode" = .ok charset) :
    ∃ result log, (readText path encoding).run host = (.ok result, { host with log }) ∧
      ((∃ s, charset.decode bytes = .ok s ∧ result = .success s "read") ∨
        ∃ f fault, charset.decode bytes = .error fault ∧ result = .failure f) := by
  by_cases hbytes : bytes = []
  · subst hbytes
    refine ⟨_, _, run_readText_of_empty h encoding, .inl ⟨[], ?_, rfl⟩⟩
    exact charset.decode_nil
  · have hempty : bytes.isEmpty = false := by simpa using hbytes
    rw [readText, run_bind_of_run (run_readBytes_of_holds h)]
    simp only [hempty, hcharset]
    cases hdecode : charset.decode bytes with
    | ok s => exact ⟨_, _, rfl, .inl ⟨s, rfl, rfl⟩⟩
    | error fault => exact ⟨_, _, rfl, .inr ⟨_, fault, rfl, rfl⟩⟩

/-- A text is not converted without a character set. -/
theorem run_writeText_of_fault (hfault : Charset.named encoding "encode" = .error fault) :
    (writeText path content encoding append).run host = (.error fault, host) := by
  rw [writeText, hfault]
  rfl

/-- A text is written if its character set has bytes for it and the host takes these. Otherwise nothing
but the log changes. -/
theorem run_writeText_of_charset (hcharset : Charset.named encoding "encode" = .ok charset)
    (path content : Text) (append : Bool) (host : Host) :
    ∃ result host', (writeText path content encoding append).run host = (.ok result, host') ∧
      ((result.isSuccess = true ∧ ∃ bytes disk, charset.encode content = .ok bytes ∧
          Request.outcome [path] (·.writeBytes path bytes append) host.disk = .ok disk ∧
          host' = { host with disk }) ∨
        (result.isSuccess = false ∧ (∃ log, host' = { host with log }) ∧
          ∀ bytes disk, charset.encode content = .ok bytes →
            Request.outcome [path] (·.writeBytes path bytes append) host.disk ≠ .ok disk)) := by
  rw [writeText]
  simp only [hcharset]
  cases hencode : charset.encode content with
  | error fault => exact ⟨_, _, rfl, .inr ⟨rfl, ⟨_, rfl⟩, fun _ _ h => nomatch h⟩⟩
  | ok bytes =>
    have hchange := Request.runOn_change [path] (·.writeBytes path bytes append) host
    cases houtcome : Request.outcome [path] (·.writeBytes path bytes append) host.disk with
    | ok disk =>
      rw [houtcome] at hchange
      have hrun := Request.runOn_bind_of_ok hchange fun _ => pure bytes.length
      have hguarded := run_guarded_of_ok hrun (if append then "append" else "write") path
      exact ⟨_, _, run_map_of_run hguarded Except.ok, .inl ⟨rfl, bytes, disk, rfl, houtcome, rfl⟩⟩
    | error e =>
      rw [houtcome] at hchange
      have hrun := Request.runOn_bind_of_error hchange fun _ => pure bytes.length
      obtain ⟨f, log, -, hguarded⟩ :=
        run_guarded_of_error hrun (if append then "append" else "write") path
      refine ⟨_, _, run_map_of_run hguarded Except.ok, .inr ⟨rfl, ⟨log, rfl⟩, ?_⟩⟩
      intro bytes' disk hbytes
      obtain rfl := Except.ok.inj hbytes
      simp [houtcome]

end Host

/-! ### Texts and whole files -/

namespace FileSystem

variable {path content : Text} {host host' : Host} {bytes : Bytes}

/-- The size of a file is the number of its bytes. -/
theorem run_fileSize_of_holds (h : host.disk.HoldsFile path bytes) :
    ((fileSize path).run host).1 = bytes.length := by
  obtain ⟨mode, hstatus⟩ := h.outcome_status
  rw [fileSize, Host.run_bind_of_run (run_status?_of_ok hstatus)]
  rfl

section

variable [Surroundings] {encoding : Text} {charset : Charset}

/-- A text is read from a file if its bytes stand for it. -/
theorem run_readFile_eq_some_iff (hnamed : encoding? encoding = some (.text charset))
    (h : host.disk.HoldsFile path bytes) :
    ((readFile encoding path).run host).1 = .ok (some content) ↔
      charset.decode bytes = .ok content := by
  obtain ⟨result, log, hrun, hresult⟩ :=
    Host.run_readText_of_charset h (Charset.named_of_encoding? hnamed "decode")
  rw [readFile, Host.run_bind_of_run hrun]
  rcases hresult with ⟨s, hdecode, rfl⟩ | ⟨f, fault, hdecode, rfl⟩
  · rw [hdecode]
    change (Except.ok (some s) : Except EncodingFault _) = _ ↔ _
    simp
  · rw [hdecode]
    change (Except.ok none : Except EncodingFault _) = _ ↔ _
    simp

/-- A write succeeds if the host takes the bytes of the text. -/
theorem exists_run_writeFile {disk : Disk} (hnamed : encoding? encoding = some (.text charset))
    (hencode : charset.encode content = .ok bytes)
    (h : Request.outcome [path] (·.writeBytes path bytes false) host.disk = .ok disk) :
    ∃ host', (writeFile encoding path content).run host = (.ok true, host') := by
  obtain ⟨result, host', hrun, ⟨hsuccess, -⟩ | ⟨-, -, hfailure⟩⟩ :=
    Host.run_writeText_of_charset (Charset.named_of_encoding? hnamed "encode") path content false host
  · refine ⟨host', ?_⟩
    rw [writeFile, Host.run_bind_of_run hrun, ← hsuccess]
    rfl
  · exact absurd h (hfailure bytes disk hencode)

/-- The path of a write that succeeds leads to the bytes of the text. -/
theorem of_run_writeFile (hnamed : encoding? encoding = some (.text charset))
    (h : (writeFile encoding path content).run host = (.ok true, host')) :
    ∃ bytes, charset.encode content = .ok bytes ∧ host'.disk.HoldsFile path bytes := by
  obtain ⟨result, host'', hrun, hresult⟩ :=
    Host.run_writeText_of_charset (Charset.named_of_encoding? hnamed "encode") path content false host
  rw [writeFile, Host.run_bind_of_run hrun] at h
  obtain ⟨hsuccess, rfl⟩ := Prod.mk.inj h
  have hsuccess : result.isSuccess = true := Except.ok.inj hsuccess
  rcases hresult with ⟨-, bytes, disk, hencode, houtcome, rfl⟩ | ⟨hfailure, -⟩
  · exact ⟨bytes, hencode, Disk.holdsFile_of_writeBytes houtcome⟩
  · exact nomatch hsuccess.symm.trans hfailure

/-- Whole files lose nothing. A text that was written is read back, and the size of its file is the number
of its bytes, in Latin-1 one for each character. A file that can be read, in Latin-1 any file, is written
to another path, or its own, with the bytes that it holds. -/
theorem wholeFiles_roundTrip {charset : StandardCharset}
    (hnamed : encoding? encoding = some (.text charset.toCharset)) :
    (∀ host path content host', (writeFile encoding path content).run host = (.ok true, host') →
      ((readFile encoding path).run host').1 = .ok (some content) ∧
      ∃ bytes, charset.encode content = .ok bytes ∧
        ((fileSize path).run host').1 = bytes.length ∧
        (charset = .latin1 → bytes.length = content.length)) ∧
    ∀ host path bytes, host.disk.HoldsFile path bytes →
      (charset = .latin1 → ∃ content, ((readFile encoding path).run host).1 = .ok (some content)) ∧
      ∀ content, ((readFile encoding path).run host).1 = .ok (some content) →
        ∀ host' target host'', (writeFile encoding target content).run host' = (.ok true, host'') →
          host''.disk.HoldsFile target bytes := by
  refine ⟨fun host path content host' hwrite => ?_, fun host path bytes hholds => ⟨?_, ?_⟩⟩
  · obtain ⟨bytes, hencode, hholds⟩ := of_run_writeFile hnamed hwrite
    refine ⟨(run_readFile_eq_some_iff hnamed hholds).2 (charset.isLossless _ _ hencode), bytes,
      StandardCharset.toCharset_encode_ok_iff.1 hencode, run_fileSize_of_holds hholds, ?_⟩
    rintro rfl
    exact StandardCharset.length_of_encode_latin1 (StandardCharset.toCharset_encode_ok_iff.1 hencode)
  · rintro rfl
    obtain ⟨content, hdecode⟩ := StandardCharset.exists_decode_latin1 bytes
    exact ⟨content, (run_readFile_eq_some_iff hnamed hholds).2 (StandardCharset.toCharset_decode_ok_iff.2 hdecode)⟩
  · intro content hread host' target host'' hwrite
    have hdecode := StandardCharset.toCharset_decode_ok_iff.1 ((run_readFile_eq_some_iff hnamed hholds).1 hread)
    obtain ⟨bytes', hencode, hholds'⟩ := of_run_writeFile hnamed hwrite
    obtain rfl : bytes' = bytes :=
      Except.ok.inj ((StandardCharset.toCharset_encode_ok_iff.1 hencode).symm.trans
        (StandardCharset.encode_of_decode hdecode))
    exact hholds'

end

/-- A new file with one character that UTF-8 writes as two bytes. -/
theorem wholeFiles_roundTrip_accent :
    encoding? "utf-8" = some (.text StandardCharset.utf8.toCharset) ∧
      ∃ host', (writeFile "utf-8" "a" "é").run (.ofDisk ⟨.empty, .root⟩) = (.ok true, host') ∧
        ((readFile "utf-8" "a").run host').1 = .ok (some "é") ∧
        ((fileSize "a").run host').1 = 2 ∧
        ∀ host'', (writeFile "utf-8" "b" "é").run host' = (.ok true, host'') →
          host''.disk.HoldsFile "b" (Utf8.encode "é") := by
  have hnamed : encoding? "utf-8" = some (.text StandardCharset.utf8.toCharset) := rfl
  have hplace : Disk.place ⟨.empty, .root⟩ "a" = .ok (["a"], none) :=
    Disk.place_name rfl (by decide) (by decide)
  have hnull : Request.hasNull "a" = false := by decide
  have hcall := Disk.writeBytes_of_place_none hplace (by decide) (Utf8.encode "é") false
  obtain ⟨host', hwrite⟩ :
      ∃ host', (writeFile "utf-8" "a" "é").run (.ofDisk ⟨.empty, .root⟩) = (.ok true, host') :=
    exists_run_writeFile hnamed rfl (Disk.outcome_single.2 ⟨hnull, hcall⟩)
  obtain ⟨hback, hfiles⟩ := wholeFiles_roundTrip hnamed
  obtain ⟨hread, bytes, hencode, hsize, -⟩ := hback _ _ _ _ hwrite
  obtain rfl : Utf8.encode "é" = bytes := Except.ok.inj hencode
  obtain ⟨bytes, hbytes, hholds⟩ := of_run_writeFile hnamed hwrite
  obtain rfl : Utf8.encode "é" = bytes := Except.ok.inj hbytes
  exact ⟨hnamed, host', hwrite, hread, hsize, (hfiles host' "a" _ hholds).2 "é" hread host' "b"⟩

end FileSystem

end Primitives
