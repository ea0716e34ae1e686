import Mathlib.Data.Finset.Card
import Primitives.Proofs.Session.Formatting
import Primitives.Proofs.Text.Occurrences

/-!
# Kept templates

The cache of a session keeps the templates that were requested last, each of them once. Texts that are no
templates leave no trace in it. So after any requests from the empty cache it holds the beginning, as far as
there is room, of the list of all texts of templates that were requested, in the order of their last requests.
A request finds its template there if and only if the text was requested before and fewer other templates than
there is room for have been requested since. All requests give what their texts are parsed to, and only those
that do not find their template are reported.

## Main definitions

* `Template.recent`: texts of templates among requests, the last requested one first.
* `Template.RecentlyRequested`: texts of templates with few other templates requested since.
* `TemplateCache.HoldsRecent`: caches that hold the most recent templates.

## Main results

* `TemplateCache.HoldsRecent.request`: what a request keeps.
* `TemplateCache.HoldsRecent.find?_isSome_iff`: the requests that find their template.
* `Session.holdsRecent_requested`: what a run of requests keeps.
* `Action.template_after_requests`: outcomes and reports of requests.
-/

namespace Primitives

/-! ### Distinct elements in the order of their last occurrence -/

section Lists

variable {α : Type} {a : α} {l : List α} [BEq α] [LawfulBEq α]

/-- A new last element is the only one of its kind. -/
theorem dedup_concat [DecidableEq α] (l : List α) (a : α) : (l ++ [a]).dedup = l.dedup.filter (· != a) ++ [a] := by
  induction l with
  | nil => simp
  | cons b l ih =>
    rw [List.cons_append]
    by_cases hmem : b ∈ l
    · rw [List.dedup_cons_of_mem (List.mem_append_left _ hmem), List.dedup_cons_of_mem hmem, ih]
    · rw [List.dedup_cons_of_notMem hmem]
      by_cases hb : b = a
      · rw [List.dedup_cons_of_mem (by simp [hb]), ih, List.filter_cons_of_neg (by simp [hb])]
      · rw [List.dedup_cons_of_notMem (by simp [hmem, hb]), ih, List.filter_cons_of_pos (by simp [hb]),
          List.cons_append]

/-- An element is removed from distinct ones before or after they are cut off behind one more than is kept. -/
theorem take_filter_take (h : l.Nodup) (a : α) (n : Nat) :
    ((l.take (n + 1)).filter (· != a)).take n = (l.filter (· != a)).take n := by
  induction l generalizing n with
  | nil => rw [List.take_nil]
  | cons b l ih =>
    obtain ⟨hb, hl⟩ := List.nodup_cons.1 h
    rw [List.take_succ_cons]
    by_cases heq : b = a
    · subst heq
      have hkeep : ∀ c ∈ l, (c != b) = true := fun c hc => bne_iff_ne.2 fun hcb => hb (hcb ▸ hc)
      have hkeep' : ∀ c ∈ l.take n, (c != b) = true := fun c hc => hkeep c (List.mem_of_mem_take hc)
      rw [List.filter_cons_of_neg (by simp), List.filter_cons_of_neg (by simp),
        List.filter_eq_self.2 hkeep, List.filter_eq_self.2 hkeep', List.take_take, Nat.min_self]
    · rw [List.filter_cons_of_pos (by simp [heq]), List.filter_cons_of_pos (by simp [heq])]
      cases n with
      | zero => rfl
      | succ n => rw [List.take_succ_cons, List.take_succ_cons, ih hl]

end Lists

/-! ### Recent texts -/

namespace Template

variable {requests back : List Text} {source : Text}

/-- Whether a text is one of a template. -/
def isAccepted (source : Text) : Bool :=
  (parse source).isOk

theorem isAccepted_of_ok {t : Template} (h : parse source = .ok t) : isAccepted source = true := by
  rw [isAccepted, h]
  rfl

theorem isAccepted_of_error {fault : TemplateFault} (h : parse source = .error fault) :
    isAccepted source = false := by
  rw [isAccepted, h]
  rfl

/-- The texts of templates among requests, each of them once and the last requested one first. -/
def recent (requests : List Text) : List Text :=
  (requests.filter isAccepted).dedup.reverse

/-- The text of a template that was requested, with fewer other templates requested since than a cache has room
for. -/
def RecentlyRequested (requests : List Text) (source : Text) : Prop :=
  isAccepted source ∧ ∃ front back, requests = front ++ source :: back ∧ source ∉ back ∧
    (back.filter isAccepted).toFinset.card < TemplateCache.capacity

theorem recent_concat_of_accepted (h : isAccepted source) (requests : List Text) :
    recent (requests ++ [source]) = source :: (recent requests).filter (· != source) := by
  rw [recent, List.filter_append, List.filter_cons_of_pos h, List.filter_nil, dedup_concat, List.reverse_concat,
    ← List.filter_reverse]
  rfl

theorem recent_concat_of_rejected (h : isAccepted source = false) (requests : List Text) :
    recent (requests ++ [source]) = recent requests := by
  rw [recent, List.filter_append, List.filter_cons_of_neg (by simp [h]), List.filter_nil, List.append_nil, recent]

theorem nodup_recent (requests : List Text) : (recent requests).Nodup :=
  List.nodup_reverse.2 (List.nodup_dedup _)

/-- In front of the text of a template stand the other ones that were requested since. -/
theorem exists_recent_eq_append (h : isAccepted source) (front : List Text) (hback : source ∉ back) :
    ∃ older, recent (front ++ source :: back) = (back.filter isAccepted).dedup.reverse ++ source :: older := by
  have hnew : source ∉ back.filter isAccepted := fun hmem => hback (List.mem_filter.1 hmem).1
  obtain ⟨older, holder⟩ := List.suffix_union_right (front.filter isAccepted)
    (source :: (back.filter isAccepted).dedup)
  refine ⟨older.reverse, ?_⟩
  rw [recent, List.filter_append, List.filter_cons_of_pos h, List.dedup_append, List.dedup_cons_of_notMem hnew,
    ← holder]
  simp

/-- A cache has room for a template if it has room for the other ones that were requested since. -/
theorem mem_take_recent_append_iff (h : isAccepted source) (front : List Text) (hback : source ∉ back) :
    source ∈ (recent (front ++ source :: back)).take TemplateCache.capacity ↔
      (back.filter isAccepted).toFinset.card < TemplateCache.capacity := by
  obtain ⟨older, holder⟩ := exists_recent_eq_append h front hback
  have hnew : source ∉ (back.filter isAccepted).dedup.reverse := fun hmem =>
    hback (List.mem_filter.1 (List.mem_dedup.1 (List.mem_reverse.1 hmem))).1
  rw [holder, List.card_toFinset, List.take_append, List.length_reverse, List.mem_append]
  constructor
  · rintro (hmem | hmem)
    · exact absurd (List.mem_of_mem_take hmem) hnew
    · by_contra hfull
      simp [Nat.sub_eq_zero_of_le (Nat.not_lt.1 hfull)] at hmem
  · intro hroom
    obtain ⟨k, hk⟩ := Nat.exists_eq_succ_of_ne_zero (Nat.sub_ne_zero_of_lt hroom)
    rw [hk, List.take_succ_cons]
    exact .inr List.mem_cons_self

/-- The recent texts that a cache has room for are those that were recently requested. -/
theorem mem_take_recent_iff :
    source ∈ (recent requests).take TemplateCache.capacity ↔ RecentlyRequested requests source := by
  constructor
  · intro hmem
    have hfiltered := List.mem_dedup.1 (List.mem_reverse.1 (List.mem_of_mem_take hmem))
    obtain ⟨hrequested, haccepted⟩ := List.mem_filter.1 hfiltered
    obtain ⟨front, back, rfl, hback⟩ := exists_last_of_mem hrequested
    exact ⟨haccepted, front, back, rfl, hback, (mem_take_recent_append_iff haccepted front hback).1 hmem⟩
  · rintro ⟨haccepted, front, back, rfl, hback, hroom⟩
    exact (mem_take_recent_append_iff haccepted front hback).2 hroom

end Template

/-! ### Caches -/

namespace TemplateCache

open Template

variable {cache : TemplateCache} {requests : List Text} {source : Text}

/-- A cache holds the templates that were requested last. -/
structure HoldsRecent (cache : TemplateCache) (requests : List Text) : Prop where
  sound : cache.Sound
  sources : cache.entries.map Template.source = (recent requests).take capacity

theorem holdsRecent_empty : TemplateCache.empty.HoldsRecent [] :=
  ⟨.empty, rfl⟩

namespace HoldsRecent

/-- A template that is put in front comes first, and the others keep their order. -/
theorem push (h : cache.HoldsRecent requests) {t : Template} (ht : parse source = .ok t) :
    (cache.push t).HoldsRecent (requests ++ [source]) := by
  have hsource : t.source = source := Sound.source_of_parse ht
  refine ⟨h.sound.push (by rwa [hsource]), ?_⟩
  have hfilter : (cache.entries.filter (·.source != source)).map Template.source =
      ((recent requests).take capacity).filter (· != source) := by
    rw [← h.sources, List.filter_map]
    rfl
  obtain ⟨room, hroom⟩ : ∃ room, capacity = room + 1 := ⟨capacity - 1, rfl⟩
  rw [TemplateCache.push, hsource, List.map_take, List.map_cons, hfilter, hsource,
    recent_concat_of_accepted (isAccepted_of_ok ht), hroom, List.take_succ_cons, List.take_succ_cons,
    take_filter_take (nodup_recent requests)]

/-- A request keeps the templates that were requested last. -/
theorem request (h : cache.HoldsRecent requests) (source : Text) :
    (cache.request source).2.HoldsRecent (requests ++ [source]) := by
  unfold TemplateCache.request
  cases hfind : cache.find? source with
  | some t => exact h.push (h.sound.parse_of_find? hfind)
  | none =>
    cases hparse : parse source with
    | ok t => exact h.push hparse
    | error fault => exact ⟨h.sound, by rw [recent_concat_of_rejected (isAccepted_of_error hparse), h.sources]⟩

/-- A request finds its template if it was recently requested. -/
theorem find?_isSome_iff (h : cache.HoldsRecent requests) :
    (cache.find? source).isSome ↔ RecentlyRequested requests source := by
  rw [← mem_take_recent_iff, ← h.sources, find?, List.find?_isSome, List.mem_map]
  simp

end HoldsRecent

end TemplateCache

/-! ### Requests in a session -/

open Primitives.Action

variable {session : Session} {requests : List Text}

/-- The session after templates were requested one after another. -/
def Session.requested (session : Session) (requests : List Text) : Session :=
  requests.foldl (fun current source => ((template source).runOn current).2) session

theorem Session.requested_concat (session : Session) (requests : List Text) (source : Text) :
    session.requested (requests ++ [source]) = ((template source).runOn (session.requested requests)).2 :=
  List.foldl_concat ..

/-- The record of a request that does not find its template. -/
def Template.compilation (source : Text) : Record :=
  ⟨"KaedeRT.format", .debug, "Compiling format template " ++ source.quoted⟩

/-- A request changes the kept templates, and is reported if it does not find its template. -/
theorem Action.template_changes (source : Text) (session : Session) :
    ((template source).runOn session).2.templates = (session.templates.request source).2 ∧
      ((template source).runOn session).2.host.log = session.host.log ++
        if (session.templates.find? source).isNone then [Template.compilation source] else [] := by
  simp only [template, runOn_bind, runOn_get]
  split
  · simp only [runOn_bind, runOn_report, runOn_modify, runOn_ofExcept]
    exact ⟨trivial, rfl⟩
  · simp only [runOn_bind, runOn_modify, runOn_ofExcept, List.append_nil]
    exact ⟨trivial, trivial⟩

/-- Requests from an empty cache keep the templates that were requested last. -/
theorem Session.holdsRecent_requested (h : session.templates = .empty) (requests : List Text) :
    (session.requested requests).templates.HoldsRecent requests := by
  induction requests using List.reverseRecOn with
  | nil =>
    rw [Session.requested, List.foldl_nil, h]
    exact TemplateCache.holdsRecent_empty
  | append_singleton requests source ih =>
    rw [Session.requested_concat, (template_changes source _).1]
    exact ih.request source

/-- **Requests give what their texts are parsed to, and are reported unless they repeat a recent one.** After
any requests from an empty cache, a further one gives the template of its text or the fault that parsing ends
with. It is not reported if it was recently requested, and reported otherwise. -/
theorem Action.template_after_requests (h : session.templates = .empty) (requests : List Text) (source : Text) :
    ((template source).runOn (session.requested requests)).1 =
        (Template.parse source).mapError (fun fault => .format (.template fault source)) ∧
      (Template.RecentlyRequested requests source →
        (session.requested (requests ++ [source])).host.log = (session.requested requests).host.log) ∧
      (¬ Template.RecentlyRequested requests source →
        (session.requested (requests ++ [source])).host.log =
          (session.requested requests).host.log ++ [Template.compilation source]) := by
  have hholds := Session.holdsRecent_requested h requests
  have hfound : ((session.requested requests).templates.find? source).isSome ↔
      Template.RecentlyRequested requests source := hholds.find?_isSome_iff
  refine ⟨(runOn_template hholds.sound source).1, fun hrecent => ?_, fun hrecent => ?_⟩
  · have hnew : (((session.requested requests).templates.find? source).isNone) = false := by
      rw [← Option.not_isSome, hfound.2 hrecent, Bool.not_true]
    rw [Session.requested_concat, (template_changes source _).2, hnew, if_neg Bool.false_ne_true, List.append_nil]
  · have hnew : (((session.requested requests).templates.find? source).isNone) = true := by
      rw [← Option.not_isSome, Bool.eq_false_iff.2 fun hsome => hrecent (hfound.1 hsome), Bool.not_false]
    rw [Session.requested_concat, (template_changes source _).2, hnew, if_pos rfl]

/-- A template is reported once when it is requested twice, and what is no template every time. -/
theorem Action.template_after_requests_repeated :
    (Session.fresh ⟨.empty, .root⟩).templates = .empty ∧
      ((Session.fresh ⟨.empty, .root⟩).requested ["%d", "%q", "%d"]).host.log =
        ((Session.fresh ⟨.empty, .root⟩).requested ["%d", "%q"]).host.log ∧
      ((Session.fresh ⟨.empty, .root⟩).requested ["%d", "%q", "%q"]).host.log =
        ((Session.fresh ⟨.empty, .root⟩).requested ["%d", "%q"]).host.log ++ [Template.compilation "%q"] := by
  have hempty : (Session.fresh ⟨.empty, .root⟩).templates = .empty := rfl
  have haccepted : Template.isAccepted "%d" = true := by decide +kernel
  have hrejected : Template.isAccepted "%q" = false := by decide +kernel
  refine ⟨hempty, ?_, ?_⟩
  · refine (template_after_requests hempty ["%d", "%q"] "%d").2.1
      ⟨haccepted, [], ["%q"], rfl, by decide, ?_⟩
    rw [List.filter_cons_of_neg fun h => Bool.false_ne_true (hrejected.symm.trans h)]
    decide
  · refine (template_after_requests hempty ["%d", "%q"] "%q").2.2 fun hrecent => ?_
    exact Bool.false_ne_true (hrejected.symm.trans hrecent.1)

end Primitives
