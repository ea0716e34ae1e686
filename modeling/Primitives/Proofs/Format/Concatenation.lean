import Primitives.Proofs.Format.RoundTrip

/-!
# Concatenated templates

A template that is accepted ends where its last segment does, so that what stands behind it is parsed as if
it stood alone: the segments of both templates follow each other, where a text at the end of the first one
and a text at the beginning of the second one become one text, and all offsets of the second template, that
of its rejection included, are moved by the length of the first one. Rendering goes along: each template
takes its own arguments, and the texts follow each other.

## Main definitions

* `Segment.shifted`, `TemplateFault.shifted`: segments and rejections of a template that stands further
  behind.
* `Template.joined`: segments behind each other.

## Main results

* `Template.parseFrom_shifted`: parsing from a later offset.
* `Template.parseFrom_append`: parsing behind an accepted template.
* `Template.render_append`: rendering concatenated templates.
-/

namespace Primitives

/-- A segment that stands further behind. -/
def Segment.shifted (distance : Nat) : Segment → Segment
  | .text s => .text s
  | .placeholder p => .placeholder { p with offset := distance + p.offset }

/-- The fault of a template that stands further behind. -/
def TemplateFault.shifted (distance : Nat) : TemplateFault → TemplateFault
  | .placeholder fault offset => .placeholder fault (distance + offset)
  | .numeral fault => .numeral fault

namespace Template

/-- Segments behind each other; a text in front of a text is continued by it. -/
def joined (first second : List Segment) : List Segment :=
  match first.getLast?, second with
  | some (.text s), .text t :: rest => first.dropLast ++ .text (s ++ t) :: rest
  | _, _ => first ++ second

variable {offset : Nat} {s t : Text}

/-! ### Segments behind each other -/

@[simp] theorem joined_nil (second : List Segment) : joined [] second = second :=
  rfl

theorem joined_cons (segment : Segment) {first : List Segment} (h : first ≠ [])
    (second : List Segment) :
    joined (segment :: first) second = segment :: joined first second := by
  unfold joined
  rw [List.getLast?_cons_of_ne_nil h, List.dropLast_cons_of_ne_nil h]
  split <;> rfl

theorem joined_placeholder_cons (p : Placeholder) (first second : List Segment) :
    joined (.placeholder p :: first) second = .placeholder p :: joined first second := by
  by_cases hfirst : first = []
  · subst hfirst
    rfl
  · exact joined_cons _ hfirst second

/-- A character in front of joined segments stands in front of the first ones. -/
theorem joined_consChar (c : Char) (first second : List Segment) :
    joined (consChar c first) second = consChar c (joined first second) := by
  cases first with
  | nil =>
    cases second with
    | nil => rfl
    | cons segment second => cases segment <;> rfl
  | cons segment first =>
    by_cases hfirst : first = []
    · subst hfirst
      cases segment with
      | placeholder p => rfl
      | text s =>
        cases second with
        | nil => rfl
        | cons segment second => cases segment <;> rfl
    · cases segment <;> simp [consChar, joined_cons, hfirst]

/-! ### Parsing from a later offset -/

theorem readNumber?_shifted (digits : Text) (distance : Nat) :
    (readNumber? digits).mapError (TemplateFault.shifted distance) = readNumber? digits := by
  unfold readNumber?
  split
  · rfl
  · cases Numeral.read digits <;> rfl

theorem readPrecision?_shifted (digits? : Option Text) (distance : Nat) :
    (readPrecision? digits?).mapError (TemplateFault.shifted distance) = readPrecision? digits? := by
  cases digits? with
  | none => rfl
  | some digits =>
    have hshifted := readNumber?_shifted digits distance
    cases hread : readNumber? digits <;> simp_all [readPrecision?]

theorem makePlaceholder_shifted (parts : Parts) (c : Char) (distance offset : Nat) :
    makePlaceholder parts c (distance + offset) =
      ((makePlaceholder parts c offset).map fun p => { p with offset := distance + p.offset }).mapError
        (TemplateFault.shifted distance) := by
  have hwidth := readNumber?_shifted parts.width distance
  have hprecision := readPrecision?_shifted parts.precision distance
  rw [makePlaceholder_eq, makePlaceholder_eq]
  cases hreadWidth : readNumber? parts.width with
  | error fault => simp_all
  | ok width =>
    cases hreadPrecision : readPrecision? parts.precision with
    | error fault => simp_all
    | ok precision =>
      simp only [Outcome.ok_bind]
      split
      · rfl
      · split <;> rfl

theorem incompletePlaceholder_shifted (parts : Parts) (distance offset : Nat) :
    incompletePlaceholder parts (distance + offset) =
      (incompletePlaceholder parts offset).mapError (TemplateFault.shifted distance) := by
  have hwidth := readNumber?_shifted parts.width distance
  have hprecision := readNumber?_shifted (parts.precision.getD []) distance
  unfold incompletePlaceholder
  cases hreadWidth : readNumber? parts.width with
  | error fault => simp_all
  | ok width =>
    cases hreadPrecision : readNumber? (parts.precision.getD []) with
    | error fault => simp_all
    | ok precision => rfl

theorem map_shifted_consChar (distance : Nat) (c : Char) (segments : List Segment) :
    (consChar c segments).map (Segment.shifted distance) =
      consChar c (segments.map (Segment.shifted distance)) := by
  cases segments with
  | nil => rfl
  | cons segment segments => cases segment <;> rfl

theorem head?_ne_percent (h : ∀ rest, s = '%' :: rest → False) : s.head? ≠ some '%' :=
  fun hhead => h _ (List.head?_eq_some_iff.1 hhead).choose_spec

/-- A template that stands further behind has the same segments, or the same fault, further behind. -/
theorem parseFrom_shifted (distance offset : Nat) (s : Text) :
    parseFrom (distance + offset) s =
      ((parseFrom offset s).map (List.map (Segment.shifted distance))).mapError
        (TemplateFault.shifted distance) := by
  fun_induction parseFrom offset s with
  | case1 offset =>
    rw [parseFrom_nil]
    rfl
  | case2 offset s ih =>
    rw [parseFrom_twoPercents, Nat.add_assoc, ih]
    cases parseFrom (offset + 2) s <;> simp [map_shifted_consChar]
  | case3 offset s hs parts hrest =>
    rw [parseFrom_incomplete (head?_ne_percent hs) _ hrest, incompletePlaceholder_shifted]
    cases incompletePlaceholder parts offset <;> simp
  | case4 offset s hs parts c rest hrest ih =>
    rw [parseFrom_percent (head?_ne_percent hs) _ hrest, makePlaceholder_shifted,
      show distance + offset + 1 + (s.length - rest.length) =
        distance + (offset + 1 + (s.length - rest.length)) by omega, ih]
    cases makePlaceholder parts c offset <;>
      cases parseFrom (offset + 1 + (s.length - rest.length)) rest <;>
        simp [Segment.shifted]
  | case5 offset c s _ hc ih =>
    rw [parseFrom_char hc, Nat.add_assoc, ih]
    cases parseFrom (offset + 1) s <;> simp [map_shifted_consChar]

/-! ### Parsing behind an accepted template -/

theorem dropWhile_append_of_ne_nil {p : Char → Bool} (h : s.dropWhile p ≠ []) (t : Text) :
    (s ++ t).dropWhile p = s.dropWhile p ++ t := by
  rw [List.dropWhile_append, if_neg (by simpa using h)]

theorem takeWhile_append_of_ne_nil {p : Char → Bool} (h : s.dropWhile p ≠ []) (t : Text) :
    (s ++ t).takeWhile p = s.takeWhile p := by
  rw [List.takeWhile_append, if_neg]
  intro hlength
  have hsplit := congrArg List.length (List.takeWhile_append_dropWhile (p := p) (l := s))
  have hpos := List.length_pos_iff.2 h
  rw [List.length_append] at hsplit
  omega

theorem precisionPart_append_of_ne_nil (h : (precisionPart s).2 ≠ []) (t : Text) :
    precisionPart (s ++ t) = ((precisionPart s).1, (precisionPart s).2 ++ t) := by
  cases s with
  | nil => exact absurd rfl h
  | cons c s =>
    by_cases hc : c = '.'
    · subst hc
      simp only [precisionPart] at h ⊢
      simp [takeWhile_append_of_ne_nil h, dropWhile_append_of_ne_nil h]
    · simp [precisionPart, hc]

/-- The parts of a placeholder stay the same when something follows its conversion. -/
theorem Parts.ofText_append_of_ne_nil (h : (Parts.ofText s).rest ≠ []) (t : Text) :
    Parts.ofText (s ++ t) = { Parts.ofText s with rest := (Parts.ofText s).rest ++ t } := by
  simp only [Parts.ofText] at h ⊢
  have hnumbers : (s.dropWhile isFlag).dropWhile Text.isDigit ≠ [] := by
    intro hnil
    rw [hnil] at h
    exact h rfl
  have hflags : s.dropWhile isFlag ≠ [] := by
    intro hnil
    rw [hnil] at hnumbers
    exact hnumbers rfl
  simp only [takeWhile_append_of_ne_nil hflags, dropWhile_append_of_ne_nil hflags,
    takeWhile_append_of_ne_nil hnumbers, dropWhile_append_of_ne_nil hnumbers,
    precisionPart_append_of_ne_nil h]

/-- Behind an accepted template parsing goes on as from its end. -/
theorem parseFrom_append {segments : List Segment} (h : parseFrom offset s = .ok segments) (t : Text) :
    parseFrom offset (s ++ t) = (parseFrom (offset + s.length) t).map (joined segments) := by
  fun_induction parseFrom offset s generalizing segments
  case case1 offset =>
    obtain rfl : [] = segments := by simpa using h
    cases hparse : parseFrom offset t <;> simp [hparse]
  case case2 offset s ih =>
    cases hparse : parseFrom (offset + 2) s with
    | error fault => simp [hparse] at h
    | ok first =>
      obtain rfl : consChar '%' first = segments := by simpa [hparse] using h
      rw [List.cons_append, List.cons_append, parseFrom_twoPercents, ih hparse, List.length_cons,
        List.length_cons, show offset + (s.length + 1 + 1) = offset + 2 + s.length by omega]
      cases parseFrom (offset + 2 + s.length) t <;> simp [joined_consChar]
  case case3 offset s _ parts hrest =>
    -- A template that ends within a placeholder is rejected.
    cases hmake : incompletePlaceholder parts offset with
    | error fault => simp [hmake] at h
    | ok p => exact absurd hmake (incompletePlaceholder_ne_ok _ _ _)
  case case4 offset s hs parts c rest hrest ih =>
    replace hrest : (Parts.ofText s).rest = c :: rest := hrest
    cases hmake : makePlaceholder parts c offset with
    | error fault => simp [hmake] at h
    | ok p =>
      cases hparse : parseFrom (offset + 1 + (s.length - rest.length)) rest with
      | error fault => simp [hmake, hparse] at h
      | ok first =>
        obtain rfl : .placeholder p :: first = segments := by simpa [hmake, hparse] using h
        -- The conversion stands in `s`, so that no part of the placeholder is read from `t`.
        have hlength := Parts.length_rest_le s
        have hparts := Parts.ofText_append_of_ne_nil (s := s) (by simp [hrest]) t
        rw [hrest] at hlength hparts
        rw [List.length_cons] at hlength
        have hhead : (s ++ t).head? ≠ some '%' := by
          cases s with
          | nil => simp at hlength
          | cons d s => simpa using head?_ne_percent hs
        have hmake' : makePlaceholder (Parts.ofText (s ++ t)) c offset = .ok p := by
          rw [hparts]
          exact hmake
        have hstart : offset + 1 + ((s ++ t).length - (rest ++ t).length) =
            offset + 1 + (s.length - rest.length) := by
          rw [List.length_append, List.length_append]
          omega
        have hend : offset + 1 + (s.length - rest.length) + rest.length =
            offset + ('%' :: s).length := by
          rw [List.length_cons]
          omega
        have hrest' : (Parts.ofText (s ++ t)).rest = c :: (rest ++ t) := by
          rw [hparts]
          rfl
        rw [List.cons_append, parseFrom_percent hhead offset hrest', hmake', hstart, ih hparse, hend]
        cases parseFrom (offset + ('%' :: s).length) t <;> simp [joined_placeholder_cons]
  case case5 offset c s _ hc ih =>
    cases hparse : parseFrom (offset + 1) s with
    | error fault => simp [hparse] at h
    | ok first =>
      obtain rfl : consChar c first = segments := by simpa [hparse] using h
      rw [List.cons_append, parseFrom_char hc, ih hparse, List.length_cons,
        show offset + (s.length + 1) = offset + 1 + s.length by omega]
      cases parseFrom (offset + 1 + s.length) t <;> simp [joined_consChar]

/-- Behind an accepted template the segments of the other one follow, further behind, or its fault. -/
theorem parse_append {first : Template} (h : parse s = .ok first) (t : Text) :
    parse (s ++ t) =
      ((parse t).map fun second =>
        ⟨s ++ t, joined first.segments (second.segments.map (Segment.shifted s.length))⟩).mapError
          (TemplateFault.shifted s.length) := by
  cases hsegments : parseFrom 0 s with
  | error fault => simp [parse, hsegments] at h
  | ok segments =>
    obtain rfl : ⟨s, segments⟩ = first := by simpa [parse, hsegments] using h
    have hshifted := parseFrom_shifted s.length 0 t
    rw [Nat.add_zero] at hshifted
    simp only [parse]
    rw [parseFrom_append hsegments, Nat.zero_add, hshifted]
    cases parseFrom 0 t <;> rfl

/-! ### Placeholders behind each other -/

/-- The placeholders among segments. -/
def placeholdersOf (segments : List Segment) : List Placeholder :=
  segments.filterMap fun
    | .placeholder p => some p
    | .text _ => none

/-- Joining keeps what holds of segments behind each other, if it does not matter whether a text is one or
two. -/
theorem joined_cases (first second : List Segment) :
    joined first second = first ++ second ∨ ∃ front s t rest, first = front ++ [.text s] ∧
      second = .text t :: rest ∧ joined first second = front ++ .text (s ++ t) :: rest := by
  unfold joined
  split
  · next s t rest hlast =>
    obtain ⟨front, rfl⟩ := List.getLast?_eq_some_iff.1 hlast
    exact .inr ⟨front, s, t, rest, rfl, rfl, by rw [List.dropLast_concat]⟩
  · exact .inl rfl

theorem placeholdersOf_joined (first second : List Segment) :
    placeholdersOf (joined first second) = placeholdersOf first ++ placeholdersOf second := by
  rcases joined_cases first second with heq | ⟨front, s, t, rest, rfl, rfl, heq⟩ <;>
    simp [heq, placeholdersOf]

theorem placeholdersOf_shifted (distance : Nat) (segments : List Segment) :
    placeholdersOf (segments.map (Segment.shifted distance)) =
      (placeholdersOf segments).map fun p => { p with offset := distance + p.offset } := by
  induction segments with
  | nil => rfl
  | cons segment segments ih =>
    cases segment <;> simp_all [placeholdersOf, Segment.shifted]

/-! ### Rendering -/

theorem renderSegments_append {first second : List Segment} {firstArgs secondArgs : List Value}
    {a b : Text} (hlength : firstArgs.length = (placeholdersOf first).length)
    (hfirst : renderSegments first firstArgs = .ok a)
    (hsecond : renderSegments second secondArgs = .ok b) :
    renderSegments (first ++ second) (firstArgs ++ secondArgs) = .ok (a ++ b) := by
  induction first generalizing firstArgs a with
  | nil =>
    obtain rfl : [] = a := by simpa [renderSegments] using hfirst
    obtain rfl : firstArgs = [] := by simpa [placeholdersOf] using hlength
    exact hsecond
  | cons segment first ih =>
    cases segment with
    | text s =>
      obtain ⟨rest, hrest, heq⟩ := Outcome.bind_eq_ok_iff.1 hfirst
      obtain rfl : s ++ rest = a := by simpa using heq
      simp [renderSegments, ih hlength hrest]
    | placeholder p =>
      obtain ⟨head, hhead, hfirst⟩ := Outcome.bind_eq_ok_iff.1 hfirst
      obtain ⟨rest, hrest, heq⟩ := Outcome.bind_eq_ok_iff.1 hfirst
      obtain rfl : head ++ rest = a := by simpa using heq
      cases firstArgs with
      | nil => simp [placeholdersOf] at hlength
      | cons v firstArgs =>
        have hlength' : firstArgs.length = (placeholdersOf first).length := by
          simpa [placeholdersOf] using hlength
        simp_all [renderSegments]

/-- It does not matter for rendering whether two texts are one. -/
theorem renderSegments_joined (first second : List Segment) (args : List Value) :
    renderSegments (joined first second) args = renderSegments (first ++ second) args := by
  rcases joined_cases first second with heq | ⟨front, s, t, rest, rfl, rfl, heq⟩
  · rw [heq]
  · rw [heq]
    clear heq
    induction front generalizing args with
    | nil =>
      simp only [List.nil_append, List.cons_append, renderSegments]
      cases renderSegments rest args <;> simp
    | cons segment front ih =>
      cases segment <;> simp [renderSegments, ih]

theorem renderSegments_shifted (distance : Nat) (segments : List Segment) (args : List Value) :
    renderSegments (segments.map (Segment.shifted distance)) args = renderSegments segments args := by
  induction segments generalizing args with
  | nil => rfl
  | cons segment segments ih =>
    cases segment with
    | text s => simp [Segment.shifted, renderSegments, ih]
    | placeholder p =>
      simp only [List.map_cons, Segment.shifted, renderSegments, ih]
      rfl

/-! ### Checking arguments -/

/-- An argument that a placeholder takes. -/
def Takes (p : Placeholder) (v : Value) : Prop :=
  p.accepts v ∧ ¬ isTooLarge p v

theorem checkFrom_ok_iff (index : Nat) (pairs : List (Placeholder × Value)) :
    checkFrom index pairs = .ok () ↔ ∀ pair ∈ pairs, Takes pair.1 pair.2 := by
  induction pairs generalizing index with
  | nil => simp [checkFrom]
  | cons pair pairs ih =>
    obtain ⟨p, v⟩ := pair
    rw [checkFrom]
    cases haccepts : p.accepts v <;> cases hlarge : isTooLarge p v <;>
      simp [haccepts, hlarge, ih, Takes]

/-- Arguments pass the check if there is one for each placeholder, which takes it. -/
theorem check_ok_iff (t : Template) (args : List Value) :
    t.check args = .ok () ↔ args.length = t.arity ∧
      ∀ pair ∈ t.placeholders.zip args, Takes pair.1 pair.2 := by
  rw [check]
  split
  · next hlength => simp [hlength]
  · next hlength => simp [not_not.1 hlength, checkFrom_ok_iff]

/-- A template renders arguments that pass the check. -/
theorem render_ok_iff (t : Template) (args : List Value) (a : Text) :
    t.render args = .ok a ↔ t.check args = .ok () ∧ renderSegments t.segments args = .ok a := by
  rw [render]
  cases hcheck : t.check args with
  | error fault => simp
  | ok _ => cases hrender : renderSegments t.segments args <;> simp

/-- Concatenated templates render their arguments behind each other. -/
theorem render_append {first second : Template} {source : Text} {distance : Nat}
    {firstArgs secondArgs : List Value} {a b : Text} (hfirst : first.render firstArgs = .ok a)
    (hsecond : second.render secondArgs = .ok b) :
    (Template.mk source (joined first.segments (second.segments.map (Segment.shifted distance)))).render
      (firstArgs ++ secondArgs) = .ok (a ++ b) := by
  obtain ⟨hcheckFirst, hrenderFirst⟩ := (render_ok_iff _ _ _).1 hfirst
  obtain ⟨hcheckSecond, hrenderSecond⟩ := (render_ok_iff _ _ _).1 hsecond
  obtain ⟨hlengthFirst, htakesFirst⟩ := (check_ok_iff _ _).1 hcheckFirst
  obtain ⟨hlengthSecond, htakesSecond⟩ := (check_ok_iff _ _).1 hcheckSecond
  have hplaceholders : (Template.mk source
      (joined first.segments (second.segments.map (Segment.shifted distance)))).placeholders =
      first.placeholders ++ second.placeholders.map fun p => { p with offset := distance + p.offset } :=
    (placeholdersOf_joined _ _).trans (congrArg _ (placeholdersOf_shifted _ _))
  refine (render_ok_iff _ _ _).2 ⟨(check_ok_iff _ _).2 ⟨?_, ?_⟩, ?_⟩
  · rw [arity, hplaceholders]
    simp [hlengthFirst, hlengthSecond, arity]
  · rw [hplaceholders, List.zip_append hlengthFirst.symm, List.zip_map_left]
    intro pair hmem
    rcases List.mem_append.1 hmem with hmem | hmem
    · exact htakesFirst pair hmem
    · obtain ⟨placed, hplaced, rfl⟩ := List.mem_map.1 hmem
      exact htakesSecond placed hplaced
  · rw [renderSegments_joined]
    exact renderSegments_append hlengthFirst hrenderFirst
      ((renderSegments_shifted _ _ _).trans hrenderSecond)

end Template

end Primitives
