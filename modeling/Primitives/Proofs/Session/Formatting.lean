import Primitives.Proofs.Format.Concatenation
import Primitives.Proofs.Session.Runs
import Primitives.Session.Output

/-!
# Formatting in a session

A session keeps the templates it has parsed. Every kept template is what its text is parsed to, and this is
kept by all requests, so that formatting a text does not depend on what was formatted before: it parses the
text and renders the template, or ends with the fault of one of the two.

## Main definitions

* `TemplateCache.Sound`: caches that hold templates as they are parsed.
* `Template.formatted`: a text parsed and rendered.

## Main results

* `TemplateCache.Sound.request`: requests are parses.
* `Action.runOn_formatText`: formatting does not depend on the session.
* `Action.formatText_append`: formatting concatenated templates.
-/

namespace Primitives

/-! ### Kept templates -/

namespace TemplateCache

/-- Every kept template is what its text is parsed to. -/
def Sound (cache : TemplateCache) : Prop :=
  ∀ t ∈ cache.entries, Template.parse t.source = .ok t

namespace Sound

variable {cache : TemplateCache} {source : Text}

theorem empty : TemplateCache.empty.Sound := by
  simp [Sound, TemplateCache.empty]

theorem push (h : cache.Sound) {t : Template} (ht : Template.parse t.source = .ok t) :
    (cache.push t).Sound := by
  intro u hu
  rcases List.mem_cons.1 (List.mem_of_mem_take hu) with rfl | hu
  · exact ht
  · exact h u (List.mem_filter.1 hu).1

/-- A found template is the one that its text is parsed to. -/
theorem parse_of_find? (h : cache.Sound) {t : Template} (hfind : cache.find? source = some t) :
    Template.parse source = .ok t := by
  have hsource : t.source = source := by simpa using List.find?_some hfind
  rw [← hsource]
  exact h t (List.mem_of_find?_eq_some hfind)

/-- A parsed template has the text that it was parsed from. -/
theorem source_of_parse {t : Template} (h : Template.parse source = .ok t) : t.source = source := by
  cases hsegments : Template.parseFrom 0 source with
  | error fault => simp [Template.parse, hsegments] at h
  | ok segments =>
    obtain rfl : ⟨source, segments⟩ = t := by simpa [Template.parse, hsegments] using h
    rfl

/-- A request gives what its text is parsed to, and leaves a sound cache behind. -/
theorem request (h : cache.Sound) (source : Text) :
    (cache.request source).1 = Template.parse source ∧ (cache.request source).2.Sound := by
  unfold TemplateCache.request
  cases hfind : cache.find? source with
  | some t =>
    have hparse := h.parse_of_find? hfind
    exact ⟨hparse.symm, h.push (by rwa [source_of_parse hparse])⟩
  | none =>
    cases hparse : Template.parse source with
    | error fault => exact ⟨rfl, h⟩
    | ok t => exact ⟨rfl, h.push (by rwa [source_of_parse hparse])⟩

end Sound

end TemplateCache

/-! ### Formatted texts -/

/-- A template text parsed and rendered with arguments. -/
def Template.formatted (source : Text) (args : List Value) : Except FormatFault Text := do
  (← (parse source).mapError (.template · source)).render args

theorem Template.formatted_ok_iff {source : Text} {args : List Value} {a : Text} :
    formatted source args = .ok a ↔ ∃ t, parse source = .ok t ∧ t.render args = .ok a := by
  unfold formatted
  cases parse source <;> simp

theorem Template.formatted_append {source source' : Text} {args args' : List Value} {a b : Text}
    (h : formatted source args = .ok a) (h' : formatted source' args' = .ok b) :
    formatted (source ++ source') (args ++ args') = .ok (a ++ b) := by
  obtain ⟨first, hfirst, hrender⟩ := formatted_ok_iff.1 h
  obtain ⟨second, hsecond, hrender'⟩ := formatted_ok_iff.1 h'
  have hparse := parse_append hfirst source'
  rw [hsecond] at hparse
  exact formatted_ok_iff.2 ⟨_, hparse, render_append hrender hrender'⟩

namespace Action

variable {session : Session} (h : session.templates.Sound)

include h

/-- The template of a text does not depend on the templates that are kept. -/
theorem runOn_template (source : Text) :
    ((template source).runOn session).1 =
        (Template.parse source).mapError (fun fault => .format (.template fault source)) ∧
      ((template source).runOn session).2.templates.Sound := by
  obtain ⟨hresult, hsound⟩ := h.request source
  simp only [template, runOn_bind, runOn_get]
  -- The report of a new template changes the log only.
  split <;>
    simp only [runOn_bind, runOn_report, runOn_modify, runOn_ofExcept, hresult] <;>
    exact ⟨trivial, hsound⟩

/-- Formatting does not depend on the session. -/
theorem runOn_formatText (source : Text) (args : List Value) :
    ((formatText source args).runOn session).1 = (Template.formatted source args).mapError .format ∧
      ((formatText source args).runOn session).2.templates.Sound := by
  obtain ⟨houtcome, hsound⟩ := runOn_template h source
  rw [formatText, Template.formatted]
  rcases hrun : (template source).runOn session with ⟨outcome, session'⟩
  rw [hrun] at houtcome hsound
  cases hparse : Template.parse source with
  | error fault =>
    obtain rfl : outcome = .error (.format (.template fault source)) := by
      rw [hparse] at houtcome
      exact houtcome
    rw [runOn_bind_of_error hrun]
    exact ⟨rfl, hsound⟩
  | ok t =>
    obtain rfl : outcome = .ok t := by
      rw [hparse] at houtcome
      exact houtcome
    rw [runOn_bind_of_ok hrun, runOn_ofExcept]
    exact ⟨rfl, hsound⟩

omit h

theorem formatText_ok_iff (h : session.templates.Sound) {source : Text} {args : List Value} {a : Text} :
    ((formatText source args).runOn session).1 = .ok a ↔ Template.formatted source args = .ok a := by
  rw [(runOn_formatText h source args).1]
  cases Template.formatted source args <;> simp

/-- What stands behind an accepted template is parsed as if it stood alone, further behind: its segments
follow those of the template, and a rejection of it is one of the whole for the same reason. So texts that
are formatted follow each other. -/
theorem formatText_append {source : Text} {first : Template}
    (h : Template.parse source = .ok first) (source' : Text) :
    (∀ second, Template.parse source' = .ok second →
      Template.parse (source ++ source') = .ok ⟨source ++ source',
        Template.joined first.segments (second.segments.map (Segment.shifted source.length))⟩) ∧
    (∀ fault offset, Template.parse source' = .error (.placeholder fault offset) →
      Template.parse (source ++ source') = .error (.placeholder fault (source.length + offset))) ∧
    ∀ (session session' session'' : Session), session.templates.Sound → session'.templates.Sound →
      session''.templates.Sound → ∀ args args' a b,
        ((formatText source args).runOn session).1 = .ok a →
        ((formatText source' args').runOn session').1 = .ok b →
          ((formatText (source ++ source') (args ++ args')).runOn session'').1 = .ok (a ++ b) := by
  have hparse := Template.parse_append h source'
  refine ⟨fun second hsecond => ?_, fun fault offset hfault => ?_, ?_⟩
  · rw [hparse, hsecond]
    rfl
  · rw [hparse, hfault]
    rfl
  · intro session session' session'' hsound hsound' hsound'' args args' a b hfirst hsecond
    rw [formatText_ok_iff hsound] at hfirst
    rw [formatText_ok_iff hsound'] at hsecond
    rw [formatText_ok_iff hsound'']
    exact Template.formatted_append hfirst hsecond

/-- The text around two placeholders that meet becomes one, and a percent sign without a conversion is
rejected where it stands. -/
theorem formatText_append_meeting :
    Template.parse "x%dyz%s".toList =
        .ok ⟨"x%dyz%s".toList,
          [.text ['x'], .placeholder ⟨['d'], [], none, none, 1⟩, .text ['y', 'z'],
            .placeholder ⟨['s'], [], none, none, 5⟩]⟩ ∧
      Template.parse "x%dy%q".toList = .error (.placeholder (.unknownConversion 'q') 4) ∧
      ((formatText "x%dyz%s".toList [.int 3, .text ['q']]).runOn (.fresh ⟨.empty, .root⟩)).1 =
        .ok "x3yzq".toList := by
  have hparse : Template.parse "x%dy".toList =
      .ok ⟨"x%dy".toList, [.text ['x'], .placeholder ⟨['d'], [], none, none, 1⟩, .text ['y']]⟩ := by
    decide +kernel
  have hsound : (Session.fresh ⟨.empty, .root⟩).templates.Sound := TemplateCache.Sound.empty
  refine ⟨?_, ?_, ?_⟩
  · exact (formatText_append hparse "z%s".toList).1
      ⟨"z%s".toList, [.text ['z'], .placeholder ⟨['s'], [], none, none, 1⟩]⟩ (by decide +kernel)
  · exact (formatText_append hparse "%q".toList).2.1 (.unknownConversion 'q') 0 (by decide +kernel)
  · exact (formatText_append hparse "z%s".toList).2.2 _ _ _ hsound hsound hsound
      [.int 3] [.text ['q']] "x3y".toList "zq".toList
      ((formatText_ok_iff hsound).2 (by decide +kernel)) ((formatText_ok_iff hsound).2 (by decide +kernel))

end Action

end Primitives
