import Primitives.Proofs.Files.WholeFiles
import Primitives.Proofs.Settings.Normalization

/-!
# Named encodings and whole files

Settings are accepted with any encoding that is registered, while whole files are read and written only by
those that are for texts. With an encoding that is not, every write ends with a fault, whatever the path
and the text, and so does every reading of a file that is not empty; files that cannot be read and empty
files are dealt with before the encoding is looked up. All of this holds for any registry.

## Main definitions

* `Host.Returns`: a step of the host that ends with a value.
* `Surroundings.IsForTexts`: names under which a character set is registered.

## Main results

* `Settings.fileEncoding_of_ofDatum`: the encoding of accepted settings is registered or the default.
* `FileSystem.returns_readFile_iff`, `FileSystem.returns_writeFile_iff`: when a file is read or written
  without a fault.
* `FileSystem.wholeFiles_return_iff`: the same for all accepted settings and all whole-file operations.
-/

namespace Primitives

open Surroundings

/-! ### Encodings of settings -/

/-- A name under which a character set is registered. -/
def Surroundings.IsForTexts [Surroundings] (encoding : Text) : Prop :=
  ∃ charset, encoding? encoding = some (.text charset)

namespace Settings

variable [Surroundings]

theorem fileEncoding_of_ofEntries {entries : List (Text × Datum)} {settings : Settings}
    (h : ofEntries entries = .ok settings) :
    (encoding? settings.fileEncoding).isSome ∨ settings.fileEncoding = ({} : Settings).fileEncoding := by
  rcases field_eq_ok_iff.1 (ofEntries_ok_iff.1 h).fileEncoding with ⟨-, heq⟩ | ⟨d, -, hread⟩
  · exact .inr heq
  · exact .inl (readFileEncoding_ok_iff.1 hread).2.2

/-- The encoding of accepted settings is registered, or it is the default, which is not looked up. -/
theorem fileEncoding_of_ofDatum {d : Datum} {settings : Settings} (h : ofDatum d = .ok settings) :
    (encoding? settings.fileEncoding).isSome ∨ settings.fileEncoding = ({} : Settings).fileEncoding := by
  unfold ofDatum at h
  split at h
  · exact fileEncoding_of_ofEntries h
  · split at h
    · exact fileEncoding_of_ofEntries h
    · exact nomatch h
  · exact nomatch h

end Settings

/-! ### Steps that return -/

namespace Host

variable {α β : Type} {encoding path content : Text} {host : Host}

/-- A step of the host that ends with a value, not with an encoding fault. -/
def Returns (step : HostM (Except EncodingFault α)) (host : Host) : Prop :=
  ∃ a, (step.run host).1 = .ok a

theorem returns_of_run {step : HostM (Except EncodingFault α)} {a : α} {host' : Host}
    (h : step.run host = (.ok a, host')) : Returns step host :=
  ⟨a, congrArg Prod.fst h⟩

theorem not_returns_of_run {step : HostM (Except EncodingFault α)} {fault : EncodingFault}
    {host' : Host} (h : step.run host = (.error fault, host')) : ¬ Returns step host := by
  rintro ⟨a, hrun⟩
  exact nomatch (congrArg Prod.fst h).symm.trans hrun

/-- A step returns if the one that its value is made from does. -/
theorem returns_map_iff (step : HostM (Except EncodingFault α)) (f : α → β) :
    Returns (do return (← step).map f) host ↔ Returns step host := by
  rcases hrun : step.run host with ⟨result, host'⟩
  have hmap : (do return (← step).map f : HostM (Except EncodingFault β)).run host =
      (result.map f, host') := run_bind_of_run hrun _
  cases result with
  | error fault => exact iff_of_false (not_returns_of_run hmap) (not_returns_of_run hrun)
  | ok a => exact iff_of_true (returns_of_run hmap) (returns_of_run hrun)

variable [Surroundings]

theorem exists_named_error (h : ¬ IsForTexts encoding) (verb : Text) :
    ∃ fault, Charset.named encoding verb = .error fault := by
  unfold Charset.named
  split
  · next hnamed => exact absurd ⟨_, hnamed⟩ h
  · exact ⟨_, rfl⟩
  · exact ⟨_, rfl⟩

/-- A text is written without a fault only by an encoding for texts. -/
theorem returns_writeText_iff {append : Bool} :
    Returns (writeText path content encoding append) host ↔ IsForTexts encoding := by
  by_cases htext : IsForTexts encoding
  · refine iff_of_true ?_ htext
    obtain ⟨charset, hnamed⟩ := htext
    obtain ⟨result, host', hrun, -⟩ :=
      run_writeText_of_charset (Charset.named_of_encoding? hnamed "encode") path content append host
    exact returns_of_run hrun
  · refine iff_of_false ?_ htext
    obtain ⟨fault, hfault⟩ := exists_named_error htext "encode"
    exact not_returns_of_run (run_writeText_of_fault hfault)

/-- A file is read without a fault if the encoding is one for texts, or if there is nothing to decode. -/
theorem returns_readText_iff :
    Returns (readText path encoding) host ↔
      IsForTexts encoding ∨ ∀ bytes, host.disk.HoldsFile path bytes → bytes = [] := by
  by_cases hholds : ∃ bytes, host.disk.HoldsFile path bytes
  · obtain ⟨bytes, hbytes⟩ := hholds
    by_cases htext : IsForTexts encoding
    · refine iff_of_true ?_ (.inl htext)
      obtain ⟨charset, hnamed⟩ := htext
      obtain ⟨result, log, hrun, -⟩ :=
        run_readText_of_charset hbytes (Charset.named_of_encoding? hnamed "decode")
      exact returns_of_run hrun
    · by_cases hempty : bytes = []
      · subst hempty
        exact iff_of_true (returns_of_run (run_readText_of_empty hbytes encoding))
          (.inr fun bytes h => h.unique hbytes)
      · obtain ⟨fault, hfault⟩ := exists_named_error htext "decode"
        refine iff_of_false (not_returns_of_run (run_readText_of_fault hbytes hempty hfault)) ?_
        rintro (htext' | hall)
        · exact htext htext'
        · exact hempty (hall bytes hbytes)
  · obtain ⟨f, log, hrun⟩ := run_readText_of_not_holds (not_exists.1 hholds) encoding
    exact iff_of_true (returns_of_run hrun) (.inr fun bytes h => absurd ⟨bytes, h⟩ hholds)

end Host

/-! ### Whole-file operations -/

namespace FileSystem

open Host

section

variable [Surroundings] {encoding path content : Text} {host : Host}

theorem returns_readFile_iff :
    Returns (readFile encoding path) host ↔ Returns (readText path encoding) host := by
  rcases hrun : (readText path encoding).run host with ⟨fault | result, host'⟩
  · have hread : (readFile encoding path).run host = (.error fault, host') :=
      run_bind_of_run hrun _
    exact iff_of_false (not_returns_of_run hread) (not_returns_of_run hrun)
  · refine iff_of_true ?_ (returns_of_run hrun)
    cases result with
    | success s operation =>
      have hread : (readFile encoding path).run host = (.ok (some s), host') :=
        run_bind_of_run hrun _
      exact returns_of_run hread
    | failure f =>
      have hread : (readFile encoding path).run host = (.ok none, host') := run_bind_of_run hrun _
      exact returns_of_run hread

theorem returns_readLines_iff :
    Returns (readLines encoding path) host ↔ Returns (readFile encoding path) host :=
  returns_map_iff _ _

theorem returns_writeFile_iff :
    Returns (writeFile encoding path content) host ↔ IsForTexts encoding :=
  (returns_map_iff _ _).trans returns_writeText_iff

theorem returns_appendFile_iff :
    Returns (appendFile encoding path content) host ↔ IsForTexts encoding :=
  (returns_map_iff _ _).trans returns_writeText_iff

/-- Accepted settings name an encoding that is registered, apart from the default. With accepted settings
the whole-file operations return in every state and for all arguments if a character set is registered
under this name. Otherwise a text, and lines, are never written, and a file is read only if it is empty or
cannot be read at all. -/
theorem wholeFiles_return_iff {d : Datum} {settings : Settings}
    (hsettings : Settings.ofDatum d = .ok settings) (host : Host) (path : Text) :
    let encoding := settings.fileEncoding
    ((encoding? encoding).isSome ∨ encoding = ({} : Settings).fileEncoding) ∧
      (∀ content, Returns (writeFile encoding path content) host ↔ IsForTexts encoding) ∧
      (∀ content, Returns (appendFile encoding path content) host ↔ IsForTexts encoding) ∧
      (∀ ls, Returns (writeLines encoding path ls) host ↔ IsForTexts encoding) ∧
      (Returns (readFile encoding path) host ↔
        IsForTexts encoding ∨ ∀ bytes, host.disk.HoldsFile path bytes → bytes = []) ∧
      (Returns (readLines encoding path) host ↔
        IsForTexts encoding ∨ ∀ bytes, host.disk.HoldsFile path bytes → bytes = []) := by
  intro encoding
  have hread : Returns (readFile encoding path) host ↔
      IsForTexts encoding ∨ ∀ bytes, host.disk.HoldsFile path bytes → bytes = [] :=
    returns_readFile_iff.trans returns_readText_iff
  exact ⟨Settings.fileEncoding_of_ofDatum hsettings, fun _ => returns_writeFile_iff,
    fun _ => returns_appendFile_iff, fun _ => returns_writeFile_iff, hread,
    returns_readLines_iff.trans hread⟩

end

/-- Settings with an encoding that is not for texts are accepted, and nothing is written with them. -/
theorem wholeFiles_return_iff_hexadecimal :
    ∃ settings, Settings.ofDatum (.mapping [(.text "file_encoding", .text "hex")]) = .ok settings ∧
      ∀ host path content, ¬ Returns (writeFile settings.fileEncoding path content) host := by
  have hsettings : Settings.ofDatum (.mapping [(.text "file_encoding", .text "hex")]) =
      .ok { fileEncoding := "hex" } := rfl
  refine ⟨_, hsettings, fun host path content hreturns => ?_⟩
  obtain ⟨-, hwrite, -⟩ := wholeFiles_return_iff hsettings host path
  obtain ⟨charset, hnamed⟩ := (hwrite content).1 hreturns
  have hother : encoding? "hex" = some .other := rfl
  exact nomatch hother.symm.trans hnamed

end FileSystem

end Primitives
