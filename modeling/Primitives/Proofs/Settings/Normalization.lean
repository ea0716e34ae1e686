import Primitives.Proofs.Outcomes
import Primitives.Settings.Basic
import Primitives.Surroundings.Standard

/-!
# Settings that are read again

Settings are made of seven fields. Each one is read from a datum of several kinds, and what it is read as can be written
as a datum that is read as the same: a character as a text of it, a level as its name, a number as itself. The defaults
are read as themselves as well. So the mapping of all fields of accepted settings is accepted and gives these settings
again, in surroundings whose conversions take data of the right kind as they are and whose registry knows the default
encoding. A field depends on the datum of its name alone, so the order of a mapping does not matter.

## Main definitions

* `Datum.textMapping`: a mapping with texts as keys.
* `Settings.fields`: the seven fields of settings, as data.
* `Settings.ReadFrom`: settings with all fields as they are read from entries.

## Main results

* `Settings.ofEntries_ok_iff`: accepted entries have known names and fields that can be read.
* `Settings.readNullChar_ok_iff`, `Settings.readFileEncoding_ok_iff`, `Settings.readLogLevel_ok_iff`: the texts that
  the checked fields take.
* `Settings.ReadFrom.readFrom_fields`: the fields of settings are read as the settings.
* `Settings.ofDatum_normalizes`: accepted mappings, their settings and the order of keys.
-/

namespace Primitives

/-- The mapping of entries with texts as keys. -/
def Datum.textMapping (entries : List (Text × Datum)) : Datum :=
  .mapping (entries.map fun (key, d) => (.text key, d))

/-- A reordering of entries with different keys keeps what is found at a key. -/
theorem lookup_eq_of_perm {α : Type} {entries entries' : List (Text × α)} (h : entries.Perm entries')
    (hkeys : (entries.map Prod.fst).Nodup) (key : Text) : entries.lookup key = entries'.lookup key := by
  induction h with
  | nil => rfl
  | cons entry _ ih => rw [List.lookup_cons, List.lookup_cons, ih (List.nodup_cons.1 hkeys).2]
  | swap first second rest =>
    obtain ⟨name, a⟩ := first
    obtain ⟨name', b⟩ := second
    have hne : name' ≠ name := fun heq => (List.nodup_cons.1 hkeys).1 (heq ▸ List.mem_cons_self)
    simp only [List.lookup_cons]
    by_cases hkey : key = name
    · have hother : (key == name') = false := by
        rw [hkey, beq_eq_false_iff_ne]
        exact hne.symm
      rw [hother]
    · have hother : (key == name) = false := by rwa [beq_eq_false_iff_ne]
      rw [hother]
  | trans hfirst _ ih ih' => exact (ih hkeys).trans (ih' ((hfirst.map _).nodup hkeys))

namespace Settings

open Surroundings

variable {entries entries' : List (Text × Datum)} {s : Settings} {d : Datum}

/-! ### Level names and single fields -/

/-- A level is found by its name in any letter case. -/
theorem levelNamed?_eq_some_iff {name : Text} {level : Level} :
    levelNamed? name = some level ↔ upperLevel name = level.name := by
  rw [levelNamed?]
  generalize upperLevel name = upper
  constructor
  · intro h
    have hname := List.find?_some h
    exact (beq_iff_eq.1 hname).symm
  · rintro rfl
    cases level <;> rfl

/-- A field without a datum has its default, and another one has what its datum is read as. -/
theorem field_eq_ok_iff {α : Type} {name : Text} {read : Datum → Except Issue α} {default a : α} :
    field entries name read default = .ok a ↔
      entries.lookup name = none ∧ a = default ∨ ∃ d, entries.lookup name = some d ∧ read d = .ok a := by
  unfold field
  cases entries.lookup name with
  | none => simp [eq_comm]
  | some d => cases hread : read d <;> simp [hread]

theorem read_of_field_eq_ok {α : Type} {name : Text} {read : Datum → Except Issue α} {default a : α}
    (hd : entries.lookup name = some d) (h : field entries name read default = .ok a) : read d = .ok a := by
  simpa [field_eq_ok_iff, hd] using h

theorem unknownFields_eq_nil_iff : unknownFields entries = [] ↔ ∀ entry ∈ entries, entry.1 ∈ fieldNames := by
  simp [unknownFields, List.filter_eq_nil_iff]

section

variable [Surroundings]

theorem ofDatum_textMapping (entries : List (Text × Datum)) : ofDatum (.textMapping entries) = ofEntries entries := by
  have htexts : Datum.textEntries? (entries.map fun (key, d) => (.text key, d)) = some entries := by
    induction entries with
    | nil => rfl
    | cons entry entries ih => rw [List.map_cons, Datum.textEntries?, ih]; rfl
  rw [Datum.textMapping, ofDatum, htexts]

/-! ### Accepted entries -/

/-- All names of entries are names of fields, and the fields of settings are what is read of the entries. -/
structure ReadFrom (s : Settings) (entries : List (Text × Datum)) : Prop where
  known : ∀ entry ∈ entries, entry.1 ∈ fieldNames
  nullChar : field entries "null_char" readNullChar ({} : Settings).nullChar = .ok s.nullChar
  fileEncoding : field entries "file_encoding" readFileEncoding ({} : Settings).fileEncoding = .ok s.fileEncoding
  randomSeed : field entries "random_seed" (optional intOf) ({} : Settings).randomSeed = .ok s.randomSeed
  readIntDefault : field entries "read_int_default" intOf ({} : Settings).readIntDefault = .ok s.readIntDefault
  readDoubleDefault : field entries "read_float_default" doubleOf ({} : Settings).readDoubleDefault =
    .ok s.readDoubleDefault
  debugPrefix : field entries "debug_prefix" textOf ({} : Settings).debugPrefix = .ok s.debugPrefix
  logLevel : field entries "log_level" readLogLevel ({} : Settings).logLevel = .ok s.logLevel

/-- Entries are accepted if their names are known and all fields can be read. -/
theorem ofEntries_ok_iff : ofEntries entries = .ok s ↔ s.ReadFrom entries := by
  constructor
  · intro h
    simp only [ofEntries] at h
    split at h
    · next hc he hs hn hx hp hl hfound =>
      obtain rfl := Except.ok.inj h
      have hknown := (List.append_eq_nil_iff.1 hfound).2
      exact ⟨unknownFields_eq_nil_iff.1 hknown, hc, he, hs, hn, hx, hp, hl⟩
    · cases h
  · rintro ⟨hknown, hc, he, hs, hn, hx, hp, hl⟩
    have hnone := unknownFields_eq_nil_iff.2 hknown
    simp only [ofEntries, hc, he, hs, hn, hx, hp, hl, hnone, issues, List.append_nil]

/-- What is read of entries is read of every reordering. -/
theorem ReadFrom.of_perm (h : s.ReadFrom entries) (hkeys : (entries.map Prod.fst).Nodup)
    (hperm : entries'.Perm entries) : s.ReadFrom entries' := by
  have hfield {α : Type} (name : Text) (read : Datum → Except Issue α) (default : α) :
      field entries' name read default = field entries name read default := by
    rw [field, field, lookup_eq_of_perm hperm.symm hkeys]
  obtain ⟨hknown, hc, he, hs, hn, hx, hp, hl⟩ := h
  exact ⟨fun entry hentry => hknown entry (hperm.mem_iff.1 hentry), (hfield _ _ _).trans hc, (hfield _ _ _).trans he,
    (hfield _ _ _).trans hs, (hfield _ _ _).trans hn, (hfield _ _ _).trans hx, (hfield _ _ _).trans hp,
    (hfield _ _ _).trans hl⟩

/-! ### Checked fields -/

theorem readNullChar_ok_iff {c : Char} : readNullChar d = .ok c ↔ textOf d = .ok [c] := by
  unfold readNullChar
  cases textOf d with
  | error issue => simp
  | ok text =>
    rw [Outcome.ok_bind, Except.ok.injEq]
    rcases text with _ | ⟨c', _ | ⟨c'', rest⟩⟩
    · exact iff_of_false (fun h => nomatch h) (by simp)
    · exact ⟨fun h => by rw [Except.ok.inj h], fun h => by rw [List.head_eq_of_cons_eq h]; rfl⟩
    · exact iff_of_false (fun h => nomatch h) (by simp)

theorem readFileEncoding_ok_iff {name : Text} :
    readFileEncoding d = .ok name ↔ textOf d = .ok name ∧ '\x00' ∉ name ∧ (encoding? name).isSome := by
  unfold readFileEncoding
  cases textOf d with
  | error issue => simp
  | ok text =>
    rw [Outcome.ok_bind, Except.ok.injEq]
    by_cases hnull : '\x00' ∈ text
    · rw [if_pos (List.contains_iff_mem.2 hnull)]
      exact iff_of_false (by simp) fun h => h.2.1 (h.1 ▸ hnull)
    · rw [if_neg (mt List.contains_iff_mem.1 hnull)]
      by_cases hnamed : (encoding? text).isSome
      · rw [if_pos hnamed]
        constructor
        · intro h
          obtain rfl := Except.ok.inj h
          exact ⟨rfl, hnull, hnamed⟩
        · rintro ⟨rfl, -, -⟩
          rfl
      · rw [if_neg hnamed]
        exact iff_of_false (by simp) fun h => hnamed (h.1 ▸ h.2.2)

theorem readLogLevel_ok_iff {level : Level} :
    readLogLevel d = .ok level ↔ ∃ name, textOf d = .ok name ∧ upperLevel name = level.name := by
  unfold readLogLevel
  cases textOf d with
  | error issue => simp
  | ok text =>
    rw [Outcome.ok_bind]
    simp only [Except.ok.injEq, exists_eq_left', ← levelNamed?_eq_some_iff]
    cases levelNamed? text <;> simp

/-! ### Reading settings again -/

/-- The fields of settings, as data. -/
def fields (s : Settings) : List (Text × Datum) :=
  [("null_char", .text [s.nullChar]), ("file_encoding", .text s.fileEncoding),
    ("random_seed", s.randomSeed.elim .null .int), ("read_int_default", .int s.readIntDefault),
    ("read_float_default", .double s.readDoubleDefault), ("debug_prefix", .text s.debugPrefix),
    ("log_level", .text s.logLevel.name)]

omit [Surroundings] in
theorem ofValue_toValue (s : Settings) : Datum.ofValue s.toValue = .textMapping s.fields := by
  obtain ⟨c, encoding, seed, n, x, mark, level⟩ := s
  cases seed <;> rfl

theorem optional_seed (hread : ReadsBack) (seed : Option Int) :
    optional intOf (seed.elim .null .int) = .ok seed := by
  cases seed with
  | none => rfl
  | some n =>
    have hint : optional intOf (.int n) = (intOf (.int n)).map some := rfl
    rw [Option.elim_some, hint, hread.int]
    rfl

theorem readLogLevel_name (hread : ReadsBack) (level : Level) : readLogLevel (.text level.name) = .ok level := by
  refine readLogLevel_ok_iff.2 ⟨_, hread.text _, ?_⟩
  cases level <;> rfl

/-- The encoding of settings is known; it is the default, or it was looked up when it was read. -/
theorem ReadFrom.isSome_encoding? (h : s.ReadFrom entries)
    (hdefault : (encoding? ({} : Settings).fileEncoding).isSome) : (encoding? s.fileEncoding).isSome := by
  rcases field_eq_ok_iff.1 h.fileEncoding with ⟨-, heq⟩ | ⟨d, -, hread⟩
  · rwa [heq]
  · exact (readFileEncoding_ok_iff.1 hread).2.2

/-- The encoding of settings is read as itself. -/
theorem ReadFrom.readFileEncoding (h : s.ReadFrom entries) (hread : ReadsBack)
    (hdefault : (encoding? ({} : Settings).fileEncoding).isSome) :
    Settings.readFileEncoding (.text s.fileEncoding) = .ok s.fileEncoding := by
  refine readFileEncoding_ok_iff.2 ⟨hread.text _, ?_, h.isSome_encoding? hdefault⟩
  rcases field_eq_ok_iff.1 h.fileEncoding with ⟨-, heq⟩ | ⟨d, -, hread⟩
  · rw [heq]
    decide
  · exact (readFileEncoding_ok_iff.1 hread).2.1

/-- The fields of settings are read as the settings. -/
theorem ReadFrom.readFrom_fields (h : s.ReadFrom entries) (hread : ReadsBack)
    (hdefault : (encoding? ({} : Settings).fileEncoding).isSome) : s.ReadFrom s.fields where
  known := by
    have hnames : s.fields.map Prod.fst = fieldNames := rfl
    exact fun entry hentry => hnames ▸ List.mem_map_of_mem hentry
  nullChar := field_eq_ok_iff.2 (.inr ⟨_, rfl, readNullChar_ok_iff.2 (hread.text _)⟩)
  fileEncoding := field_eq_ok_iff.2 (.inr ⟨_, rfl, h.readFileEncoding hread hdefault⟩)
  randomSeed := field_eq_ok_iff.2 (.inr ⟨_, rfl, optional_seed hread s.randomSeed⟩)
  readIntDefault := field_eq_ok_iff.2 (.inr ⟨_, rfl, hread.int _⟩)
  readDoubleDefault := field_eq_ok_iff.2 (.inr ⟨_, rfl, hread.double _⟩)
  debugPrefix := field_eq_ok_iff.2 (.inr ⟨_, rfl, hread.text _⟩)
  logLevel := field_eq_ok_iff.2 (.inr ⟨_, rfl, readLogLevel_name hread s.logLevel⟩)

/-- **Settings are read once.** In surroundings that take texts, integers and doubles as they are and know the default
encoding, the settings of an accepted mapping are as follows. The null character is the only character of the text
that is given for it, the level of the log is one of the five names, which is the upper case of the one that is
given, and the encoding is known. The mapping of the seven fields of the settings is accepted and gives the same
settings, and so does every reordering of a mapping with different keys. -/
theorem ofDatum_normalizes (hread : ReadsBack) (hdefault : (encoding? ({} : Settings).fileEncoding).isSome)
    (h : ofDatum (.textMapping entries) = .ok s) :
    (∀ d, entries.lookup ("null_char" : Text) = some d → textOf d = .ok [s.nullChar]) ∧
      s.logLevel.name ∈ (["DEBUG", "INFO", "WARNING", "ERROR", "CRITICAL"] : List Text) ∧
      (∀ d, entries.lookup ("log_level" : Text) = some d →
        ∃ name, textOf d = .ok name ∧ upperLevel name = s.logLevel.name) ∧
      (encoding? s.fileEncoding).isSome ∧
      (∀ d, entries.lookup ("file_encoding" : Text) = some d → textOf d = .ok s.fileEncoding) ∧
      ofDatum (.ofValue s.toValue) = .ok s ∧
      ((entries.map Prod.fst).Nodup → ∀ entries' : List (Text × Datum), entries'.Perm entries →
        ofDatum (.textMapping entries') = .ok s) := by
  have hfrom : s.ReadFrom entries := ofEntries_ok_iff.1 ((ofDatum_textMapping entries).symm.trans h)
  have haccept {entries : List (Text × Datum)} (hfrom : s.ReadFrom entries) :
      ofDatum (.textMapping entries) = .ok s :=
    (ofDatum_textMapping entries).trans (ofEntries_ok_iff.2 hfrom)
  refine ⟨?_, ?_, ?_, ?_, ?_, ?_, ?_⟩
  · exact fun d hd => readNullChar_ok_iff.1 (read_of_field_eq_ok hd hfrom.nullChar)
  · cases s.logLevel <;> decide
  · exact fun d hd => readLogLevel_ok_iff.1 (read_of_field_eq_ok hd hfrom.logLevel)
  · exact hfrom.isSome_encoding? hdefault
  · exact fun d hd => (readFileEncoding_ok_iff.1 (read_of_field_eq_ok hd hfrom.fileEncoding)).1
  · rw [ofValue_toValue]
    exact haccept (hfrom.readFrom_fields hread hdefault)
  · exact fun hkeys entries' hperm => haccept (hfrom.of_perm hkeys hperm)

end

/-- The standard conversions take texts, integers and doubles as they are. -/
theorem readsBack_standard : Surroundings.standard.ReadsBack where
  text _ := rfl
  int _ := rfl
  double _ := rfl

/-- A seed as a text with a fraction of zeros, a truth value for a double, a character as bytes and a level with a
dotless letter give settings that are read again, and the order of the five entries does not matter. -/
theorem ofDatum_normalizes_lax :
    let entries : List (Text × Datum) :=
      [("random_seed", .text " 1_0.00"), ("read_float_default", .bool true), ("null_char", .bytes [0xc3, 0xa9]),
        ("log_level", .text "crıtical"), ("file_encoding", .text "UTF-8")]
    let s : Settings :=
      { nullChar := 'é', fileEncoding := "UTF-8", randomSeed := some 10, readDoubleDefault := .ofInt 1,
        logLevel := .critical }
    ofDatum (.textMapping entries) = .ok s ∧ ofDatum (.ofValue s.toValue) = .ok s ∧
      ofDatum (.textMapping entries.reverse) = .ok s := by
  intro entries s
  have h : ofDatum (.textMapping entries) = .ok s := by rfl
  have hkeys : (entries.map Prod.fst).Nodup := by decide
  have hdefault : (encoding? ({} : Settings).fileEncoding).isSome := by decide
  obtain ⟨-, -, -, -, -, hagain, hperm⟩ := ofDatum_normalizes readsBack_standard hdefault h
  exact ⟨h, hagain, hperm hkeys _ entries.reverse_perm⟩

end Settings

end Primitives
