import Primitives.Proofs.Format.LongNumerals
import Primitives.Proofs.Format.Printing
import Primitives.Proofs.Library.Names
import Primitives.Proofs.Session.Formatting

/-!
# Errors of formatting

Formatting ends with a text or with a format error as long as all numerals that it meets, in the template
and among the arguments, are within the limits of the host. Beyond them it ends with the fault of the host.
Whether this happens does not depend on the session.

## Main definitions

* `Fault.IsFormat`, `Action.ReportsFormat`: faults and outcomes that are reported as format errors.
* `Template.WithinLimits`: template texts and arguments with numerals within the limits.

## Main results

* `Template.formatted_reports_iff`: the texts and arguments without another fault.
* `Action.formatting_reports_iff`: the same for actions.
-/

namespace Primitives

/-- A fault that is reported as a format error. -/
def Fault.IsFormat (fault : Fault) : Prop :=
  ∃ e, fault.report? = some e ∧ e.errorClass = .format

/-! ### Texts and arguments within the limits -/

namespace Template

/-- A template text is not cut short by a numeral that is too long, and the arguments that its template
lets pass have texts. -/
structure WithinLimits (source : Text) (args : List Value) : Prop where
  digits : ¬ MeetsLong source
  prints : ∀ t, parse source = .ok t → t.check args = .ok () →
    ∀ pair ∈ t.placeholders.zip args, pair.1.Prints pair.2

/-- A text parsed and rendered is a text or ends with a format error exactly within the limits. -/
theorem formatted_reports_iff (source : Text) (args : List Value) :
    (∀ fault, formatted source args = .error fault → (Fault.format fault).IsFormat) ↔
      WithinLimits source args := by
  have hdigits := tooLong_parse_iff source
  unfold formatted
  cases hparse : parse source with
  | error fault =>
    have hprints : ∀ t, parse source = .ok t → t.check args = .ok () →
        ∀ pair ∈ t.placeholders.zip args, pair.1.Prints pair.2 := by
      simp [hparse]
    rw [hparse] at hdigits
    cases fault with
    | placeholder fault offset =>
      refine iff_of_true ?_ ⟨fun h => by simpa [TooLong] using hdigits.2 h, hprints⟩
      rintro _ ⟨⟩
      exact ⟨_, rfl, rfl⟩
    | numeral fault =>
      refine iff_of_false (fun h => ?_) fun h => h.digits (hdigits.1 ⟨fault, rfl⟩)
      obtain ⟨e, hreport, -⟩ := h _ rfl
      cases hreport
  | ok t =>
    have hshort : ¬ MeetsLong source := by
      rw [← hdigits, hparse, TooLong]
      simp
    rw [Outcome.mapError_ok, Outcome.ok_bind]
    cases hcheck : t.check args with
    | error fault =>
      refine iff_of_true ?_ ⟨hshort, by simp [hparse, hcheck]⟩
      rw [render, hcheck]
      rintro _ ⟨⟩
      exact ⟨_, rfl, rfl⟩
    | ok _ =>
      have hprints : WithinLimits source args ↔ ∃ s, t.render args = .ok s := by
        rw [exists_render_iff hparse hcheck]
        refine ⟨fun h => h.prints t hparse hcheck, fun h => ⟨hshort, ?_⟩⟩
        rintro t' hparse' -
        obtain rfl : t = t' := by simpa [hparse] using hparse'
        exact h
      rw [hprints, render, hcheck]
      cases renderSegments t.segments args with
      | ok s => simp
      | error fault =>
        refine iff_of_false (fun h => ?_) (by simp)
        obtain ⟨e, hreport, -⟩ := h _ rfl
        cases hreport

/-- An integer alone is within the limits if it has few enough digits. -/
theorem withinLimits_decimal_iff (n : Int) :
    WithinLimits "%d" [.int n] ↔ n.natAbs < 10 ^ Numeral.digitLimit := by
  have hparse : parse "%d" = .ok ⟨"%d", [.placeholder ⟨['d'], [], none, none, 0⟩]⟩ := by
    decide +kernel
  constructor
  · intro h
    have hprints := h.prints _ hparse rfl (⟨['d'], [], none, none, 0⟩, .int n) (by simp [placeholders])
    exact hprints.digits (by simp) n rfl
  · intro hn
    refine ⟨?_, ?_⟩
    · rw [← tooLong_parse_iff, hparse, TooLong]
      simp
    · intro t ht _ pair hpair
      obtain rfl := Except.ok.inj (hparse.symm.trans ht)
      obtain rfl : pair = (⟨['d'], [], none, none, 0⟩, .int n) := by
        simpa [placeholders] using hpair
      exact ⟨by simp, by simp, by simp, fun _ m hm => by cases hm; exact hn⟩

end Template

/-! ### Actions -/

namespace Action

/-- An outcome that is a value or a format error. -/
def ReportsFormat {α : Type} (outcome : Except Fault α) : Prop :=
  ∀ fault, outcome = .error fault → fault.IsFormat

theorem reportsFormat_map_iff {α β : Type} (f : α → β) (action : Action α) (session : Session) :
    ReportsFormat ((f <$> action).runOn session).1 ↔ ReportsFormat (action.runOn session).1 := by
  rw [map_eq_pure_bind]
  rcases hrun : action.runOn session with ⟨fault | a, session'⟩
  · rw [runOn_bind_of_error hrun]
    simp [ReportsFormat]
  · rw [runOn_bind_of_ok hrun]
    simp [ReportsFormat]

/-- Formatting, by itself and as an operation that is called by name, ends with a text or a format error
exactly if the numerals of the template and of the arguments are within the limits. -/
theorem formatting_reports_iff [Surroundings] {session : Session} (h : session.templates.Sound) (source : Text)
    (args : List Value) :
    (ReportsFormat ((formatText source args).runOn session).1 ↔ Template.WithinLimits source args) ∧
      (ReportsFormat ((Library.call "io.format" (.text source :: args)).runOn session).1 ↔
        Template.WithinLimits source args) ∧
      ((formatText source args).runOn session).2.templates.Sound := by
  obtain ⟨houtcome, hsound⟩ := runOn_formatText h source args
  have hformat : ReportsFormat ((formatText source args).runOn session).1 ↔
      Template.WithinLimits source args := by
    rw [houtcome, ← Template.formatted_reports_iff, ReportsFormat]
    cases Template.formatted source args <;> simp
  have hcall : Library.call "io.format" (.text source :: args) = Value.text <$> formatText source args :=
    Library.call_of_getElem? (k := 2) (l := 4) (n := "format") (s := "io.format") rfl rfl rfl (by decide) _
  rw [hcall, reportsFormat_map_iff]
  exact ⟨hformat, hformat, hsound⟩

/-- The smallest integer with too many digits is no format error, and the one below it is formatted. -/
theorem formatting_reports_iff_longInteger :
    (Session.fresh ⟨.empty, .root⟩).templates.Sound ∧
      ¬ ReportsFormat
        ((formatText "%d" [.int (10 ^ Numeral.digitLimit : Nat)]).runOn (.fresh ⟨.empty, .root⟩)).1 ∧
      ReportsFormat
        ((Library.call "io.format" [.text "%d", .int (10 ^ Numeral.digitLimit - 1 : Nat)]).runOn
          (.fresh ⟨.empty, .root⟩)).1 := by
  have hsound : (Session.fresh ⟨.empty, .root⟩).templates.Sound := TemplateCache.Sound.empty
  have hpos : 0 < 10 ^ Numeral.digitLimit := Nat.pow_pos (by decide)
  refine ⟨hsound, ?_, ?_⟩
  · rw [(formatting_reports_iff hsound _ _).1, Template.withinLimits_decimal_iff, Int.natAbs_natCast]
    exact Nat.lt_irrefl _
  · rw [(formatting_reports_iff hsound _ _).2.1, Template.withinLimits_decimal_iff, Int.natAbs_natCast]
    exact Nat.sub_lt hpos Nat.one_pos

end Action

end Primitives
