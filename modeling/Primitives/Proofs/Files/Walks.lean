import Primitives.Proofs.Files.PathTexts
import Primitives.Proofs.Files.Trees
import Primitives.Proofs.Outcomes

/-!
# Walks

A path is resolved in two parts. The components in front of the last one have to lead to a directory, and
the last one is then looked up in it. So what a path is resolved for matters for its last component only,
and a path whose front leads nowhere leads nowhere for any purpose.

## Main definitions

* `FileTree.lead`: where the front of a path leads, with the number of links that may still be followed.

## Main results

* `FileTree.walk_append`: the front first, then the rest.
* `FileTree.walk_look_directory_iff`: paths that lead to a directory as a whole.
* `FileTree.resolve_cases`: the three kinds of paths: the front leads nowhere, the path stands for a
  directory without a name, or it ends with a name.
-/

namespace Primitives.FileTree

/-! ### Fronts of paths -/

/-- The directory that components lead to, with the number of links that may still be followed. -/
def lead (t : FileTree) (links : Nat) (d : Standpoint) (components : List Text) :
    Except Errno (Standpoint × Nat) :=
  match components with
  | [] => .ok (d, links)
  | name :: rest =>
    if name = ['.'] then t.lead links d rest
    else if name = ['.', '.'] then t.lead links d.parent rest
    else if d.removed ≠ 0 then .error .noEntry
    else if isLongName name then .error .nameTooLong
    else
      match t.entry? (d.location ++ [name]) with
      | none => .error .noEntry
      | some (.directory _) => t.lead links (.live (d.location ++ [name])) rest
      | some (.file _ _) => .error .notDirectory
      | some (.link target) =>
        match links with
        | 0 => .error .tooManyLinks
        | links + 1 =>
          let path := SplitPath.ofText target
          t.lead links (path.start d) (path.components ++ rest)
termination_by (links, components.length)

/-- The front of a front. -/
theorem lead_append (t : FileTree) (links : Nat) (d : Standpoint) (front rest : List Text) :
    t.lead links d (front ++ rest) =
      t.lead links d front >>= fun (d', links') => t.lead links' d' rest := by
  fun_induction lead t links d front
  case case1 => rfl
  case case10 target hentry links path ih =>
    rw [List.cons_append, lead]
    rw [List.append_assoc] at ih
    simp [*]
    simpa using ih
  all_goals
    rw [List.cons_append, lead]
    simp [*]

theorem lead_ne_crossDevice (t : FileTree) (links : Nat) (d : Standpoint) (components : List Text) :
    t.lead links d components ≠ .error .crossDevice := by
  fun_induction lead t links d components <;> simp [*]

theorem Closed.isDirectory_dropLast {t : FileTree} (ht : t.Closed) {p : Location}
    (h : t.isDirectory p) : t.isDirectory p.dropLast := by
  induction p using List.reverseRecOn with
  | nil => exact h
  | append_singleton p n _ =>
    obtain ⟨mode, hmode⟩ := (t.isDirectory_iff_lookup (by simp)).1 h
    rw [List.dropLast_concat]
    exact ht p n (by simp [hmode])

theorem Closed.isDirectory_parent {t : FileTree} (ht : t.Closed) {d : Standpoint}
    (hd : t.isDirectory d.location) : t.isDirectory d.parent.location := by
  unfold Standpoint.parent
  split
  · exact ht.isDirectory_dropLast hd
  · exact hd

theorem isDirectory_start {t : FileTree} {d : Standpoint} (hd : t.isDirectory d.location)
    (path : SplitPath) : t.isDirectory (path.start d).location := by
  unfold SplitPath.start
  split
  · rfl
  · exact hd

/-- The front of a path leads to a directory of the tree, if it starts from one. -/
theorem isDirectory_of_lead {t : FileTree} (ht : t.Closed) {links links' : Nat} {d d' : Standpoint}
    {components : List Text} (hd : t.isDirectory d.location)
    (h : t.lead links d components = .ok (d', links')) : t.isDirectory d'.location := by
  fun_induction lead t links d components
  case case1 =>
    obtain ⟨rfl, -⟩ := Prod.mk.inj (Except.ok.inj h)
    exact hd
  case case2 ih => exact ih hd h
  case case3 ih => exact ih (ht.isDirectory_parent hd) h
  case case7 mode hentry ih => exact ih ((t.isDirectory_iff _).2 ⟨mode, hentry⟩) h
  case case10 target hentry links path ih => exact ih (isDirectory_start hd path) h
  all_goals exact nomatch h

/-! ### Last components -/

/-- A name is looked up in a directory of the tree, if it is not too long. -/
theorem lookupName_ok_iff {t : FileTree} {d : Standpoint} {n : Text} {p : Location}
    {entry : Option Entry} : t.lookupName d n = .ok (p, entry) ↔
      d.removed = 0 ∧ isLongName n = false ∧ p = d.location ++ [n] ∧ entry = t.lookup p := by
  unfold lookupName
  by_cases hremoved : d.removed = 0
  · cases hlong : isLongName n with
    | true => simp [hremoved]
    | false =>
      simp only [hremoved, ne_eq, not_true_eq_false, if_false, Bool.false_eq_true,
        entry?_append_name, Except.ok.injEq, Prod.mk.injEq, true_and]
      constructor
      · rintro ⟨rfl, rfl⟩
        exact ⟨rfl, rfl⟩
      · rintro ⟨rfl, rfl⟩
        exact ⟨rfl, rfl⟩
  · simp [hremoved]

/-- What a name in a directory leads to. -/
theorem walk_name (t : FileTree) (purpose : Purpose) (links : Nat) (d : Standpoint) {n : Text}
    (hn : IsName n) (slash : Bool) :
    t.walk purpose links d [n] slash =
      if slash && purpose = .write then .error .isDirectory
      else
        match t.lookupName d n with
        | .error errno => .error errno
        | .ok (p, none) => if slash then .error .noEntry else .ok (.absent p)
        | .ok (p, some (.directory _)) => .ok (.directory (.live p))
        | .ok (p, some (.file mode content)) =>
          if slash then .error .notDirectory else .ok (.file p mode content)
        | .ok (p, some (.link target)) =>
          if !slash && purpose = .lookAtLink then .ok (.link p target)
          else
            match links with
            | 0 => .error .tooManyLinks
            | links + 1 =>
              let path := SplitPath.ofText target
              t.walk purpose links (path.start d) path.components (slash || path.slash) := by
  obtain ⟨-, -, hdot, hdots⟩ := hn
  rw [walk]
  by_cases hwrite : slash = true ∧ purpose = .write
  · simp [hdot, hdots, hwrite]
  · have hwrite' : (slash && decide (purpose = .write)) = false := by
      simpa using hwrite
    by_cases hremoved : d.removed = 0
    · by_cases hlong : isLongName n
      · simp [hdot, hdots, hwrite', lookupName, hremoved, hlong]
      · cases hentry : t.entry? (d.location ++ [n]) with
        | none => cases slash <;> simp_all [lookupName]
        | some e => cases e <;> cases slash <;> cases links <;> simp_all [lookupName, walk]
    · simp [hdot, hdots, hwrite', lookupName, hremoved]

/-- Only the link at the end of a path that is looked at itself is led to as a link. -/
theorem walk_ne_link {t : FileTree} {purpose : Purpose} (hpurpose : purpose ≠ .lookAtLink)
    (links : Nat) (d : Standpoint) (components : List Text) (slash : Bool) (p : Location)
    (target : Text) : t.walk purpose links d components slash ≠ .ok (.link p target) := by
  fun_induction walk t purpose links d components slash <;> simp_all

/-! ### Walks behind fronts -/

/-- The front of a path is walked first. -/
theorem walk_append (t : FileTree) (purpose : Purpose) (links : Nat) (d : Standpoint)
    (front : List Text) {rest : List Text} (hrest : rest ≠ []) (slash : Bool) :
    t.walk purpose links d (front ++ rest) slash =
      t.lead links d front >>= fun (d', links') => t.walk purpose links' d' rest slash := by
  have hlast : ∀ others : List Text, (others ++ rest).isEmpty = false := by simp [hrest]
  fun_induction lead t links d front
  case case1 => rfl
  case case10 target hentry links path ih =>
    rw [List.append_assoc] at ih
    rw [List.cons_append, walk]
    simp only [*]
    simpa using ih
  all_goals
    rw [List.cons_append, walk]
    simp [*]

theorem Purpose.look_ne_write : Purpose.look ≠ .write := by
  decide

theorem Purpose.lookAtLink_ne_write : Purpose.lookAtLink ≠ .write := by
  decide

/-- A path with a slash at the end is nothing but a front. -/
theorem walk_slash (t : FileTree) {purpose : Purpose} (hpurpose : purpose ≠ .write) (links : Nat)
    (d : Standpoint) (components : List Text) :
    t.walk purpose links d components true =
      (t.lead links d components).map fun (d', _) => .directory d' := by
  fun_induction lead t links d components
  case case1 => rw [walk]; rfl
  case case10 target hentry links path ih =>
    rw [walk]
    simp [*]
    simpa using ih
  all_goals
    rw [walk]
    simp [*]

/-- A path leads to a directory as a whole if it does so as a front. -/
theorem walk_look_directory_iff {t : FileTree} {links : Nat} {d d' : Standpoint} {components : List Text}
    {slash : Bool} : t.walk .look links d components slash = .ok (.directory d') ↔
      ∃ links', t.lead links d components = .ok (d', links') := by
  fun_induction lead t links d components generalizing slash
  case case1 =>
    rw [walk]
    simp
  case case10 target hentry links path ih =>
    rw [walk]
    simp only [*, if_false, Bool.false_eq_true, decide_false, reduceCtorEq, Bool.and_false]
    exact ih
  case case6 | case8 =>
    rw [walk]
    simp only [*, if_false, decide_false, reduceCtorEq, Bool.and_false, Bool.false_eq_true]
    split <;> simp
  all_goals
    rw [walk]
    simp [*]

/-! ### Whole paths -/

variable {t : FileTree} {d : Standpoint}

theorem lastName_append (front : List Text) (n : Text) :
    lastName (front ++ [n]) =
      if n = ['.'] then .dot else if n = ['.', '.'] then .dotDot else .name n := by
  unfold lastName
  split
  · next h => simp at h
  · simp only [List.getLastD_concat]

/-- A path is resolved up to its last component by its front. -/
theorem resolveParent_eq (t : FileTree) (d : Standpoint) (path : Text) :
    t.resolveParent d path =
      if path.isEmpty then .error .noEntry
      else if pathLimit < (Utf8.encode path).length then .error .nameTooLong
      else
        let split := SplitPath.ofText path
        (t.lead linkLimit (split.start d) split.components.dropLast).map fun (d', _) =>
          ⟨d', lastName split.components, split.slash⟩ := by
  unfold resolveParent
  simp only [walk_slash _ Purpose.look_ne_write]
  cases t.lead linkLimit ((SplitPath.ofText path).start d)
    (SplitPath.ofText path).components.dropLast <;> rfl

theorem eq_of_lastName {components : List Text} {n : Text} (h : lastName components = .name n) :
    components = components.dropLast ++ [n] := by
  cases components using List.reverseRecOn with
  | nil => exact nomatch h
  | append_singleton front m _ =>
    rw [lastName_append] at h
    split at h
    · exact nomatch h
    · split at h
      · exact nomatch h
      · rw [List.dropLast_concat, LastName.name.inj h]

theorem resolveParent_eq_ok_iff {path : Text} {parent : Parent} :
    t.resolveParent d path = .ok parent ↔ path ≠ [] ∧ (Utf8.encode path).length ≤ pathLimit ∧
      (∃ links, t.lead linkLimit ((SplitPath.ofText path).start d)
        (SplitPath.splitComponents path).dropLast = .ok (parent.directory, links)) ∧
      parent.last = lastName (SplitPath.splitComponents path) ∧
      parent.slash = (path.getLast? == some '/') := by
  rw [resolveParent_eq]
  by_cases hempty : path = []
  · simp [hempty]
  by_cases hlong : pathLimit < (Utf8.encode path).length
  · simp [hempty, hlong]
  rw [if_neg (by simpa using hempty), if_neg hlong]
  change (t.lead linkLimit ((SplitPath.ofText path).start d)
    (SplitPath.splitComponents path).dropLast).map _ = _ ↔ _
  obtain ⟨directory, last, slash⟩ := parent
  cases t.lead linkLimit ((SplitPath.ofText path).start d)
    (SplitPath.splitComponents path).dropLast with
  | error errno => simp
  | ok found =>
    obtain ⟨d', links⟩ := found
    simp [hempty, Nat.le_of_not_lt hlong, SplitPath.ofText, eq_comm]

/-- A path of which the front leads nowhere leads nowhere. A path that does not end with a name leads to a
directory. A path that ends with a name leads to what the directory in front has under this name. -/
theorem resolve_cases (t : FileTree) (d : Standpoint) (path : Text) :
    (∃ errno, t.resolveParent d path = .error errno ∧
      ∀ purpose, t.resolve d purpose path = .error errno) ∨
    (∃ parent d', t.resolveParent d path = .ok parent ∧ (∀ n, parent.last ≠ .name n) ∧
      ∀ purpose, t.resolve d purpose path = .ok (.directory d')) ∨
    ∃ parent links n, t.resolveParent d path = .ok parent ∧ parent.last = .name n ∧ IsName n ∧
      ∀ purpose, t.resolve d purpose path =
        t.walk purpose links parent.directory [n] parent.slash := by
  rw [resolveParent_eq]
  unfold resolve
  by_cases hempty : path.isEmpty
  · simp [hempty]
  by_cases hlong : pathLimit < (Utf8.encode path).length
  · simp [hempty, hlong]
  simp only [hempty, hlong, if_false, Bool.false_eq_true]
  have hnames : ∀ n ∈ (SplitPath.ofText path).components, n ≠ [] ∧ '/' ∉ n :=
    fun n => PathText.of_mem_splitComponents
  generalize SplitPath.ofText path = split at hnames ⊢
  generalize split.start d = start
  obtain ⟨absolute, components, slash⟩ := split
  simp only at hnames ⊢
  cases components using List.reverseRecOn with
  | nil =>
    refine .inr (.inl ⟨⟨start, .root, slash⟩, start, ?_, by simp, fun purpose => ?_⟩)
    · rw [List.dropLast_nil, lead]
      rfl
    · rw [walk]
  | append_singleton front n _ =>
    have hn := hnames n (by simp)
    simp only [List.dropLast_concat, walk_append t _ _ _ front (List.cons_ne_nil n []),
      lastName_append]
    cases t.lead linkLimit start front with
    | error errno => exact .inl ⟨errno, rfl, fun purpose => rfl⟩
    | ok result =>
      obtain ⟨d', links⟩ := result
      by_cases hdot : n = ['.']
      · refine .inr (.inl ⟨_, d', rfl, by simp [hdot], fun purpose => ?_⟩)
        simp [walk, hdot]
      · by_cases hdots : n = ['.', '.']
        · refine .inr (.inl ⟨_, d'.parent, rfl, by simp [hdots], fun purpose => ?_⟩)
          simp [walk, hdots]
        · refine .inr (.inr ⟨_, links, n, rfl, by simp [hdot, hdots],
            ⟨hn.1, hn.2, hdot, hdots⟩, fun purpose => rfl⟩)

/-- Of a path that is resolved up to its last component, the slash at the end is known, and the directory
in front of it is one of the tree. -/
theorem resolveParent_ok {path : Text} {parent : Parent} (h : t.resolveParent d path = .ok parent) :
    parent.slash = (path.getLast? == some '/') ∧
      (t.Closed → t.isDirectory d.location → t.isDirectory parent.directory.location) := by
  obtain ⟨-, -, ⟨links, hlead⟩, -, hslash⟩ := resolveParent_eq_ok_iff.1 h
  exact ⟨hslash, fun ht hd => isDirectory_of_lead ht (isDirectory_start hd _) hlead⟩

/-! ### Paths with the same beginning -/

theorem start_of_beginning {head path : Text} (hhead : head ≠ []) (hbegins : head <+: path)
    (d : Standpoint) : (SplitPath.ofText path).start d = (SplitPath.ofText head).start d := by
  obtain ⟨others, rfl⟩ := hbegins
  cases head with
  | nil => exact absurd rfl hhead
  | cons c head => rfl

theorem length_encode_le_of_beginning {head path : Text} (h : head <+: path) :
    (Utf8.encode head).length ≤ (Utf8.encode path).length := by
  obtain ⟨rest, rfl⟩ := h
  simp [Utf8.encode]

/-- The front of a path that goes on behind a beginning of it leads nowhere if this leads to no
directory. -/
theorem resolveParent_error_of_head {head path : Text} {rest : List Text} (hhead : head ≠ [])
    (hbegins : head <+: path)
    (hcomponents : SplitPath.splitComponents path = SplitPath.splitComponents head ++ rest)
    (hrest : rest ≠ []) (hnowhere : ∀ d', t.resolve d .look head ≠ .ok (.directory d')) :
    ∃ errno, t.resolveParent d path = .error errno := by
  cases hparent : t.resolveParent d path with
  | error errno => exact ⟨errno, rfl⟩
  | ok parent =>
    obtain ⟨-, hlength, ⟨links, hlead⟩, -, -⟩ := resolveParent_eq_ok_iff.1 hparent
    rw [start_of_beginning hhead hbegins, hcomponents, List.dropLast_append_of_ne_nil hrest,
      lead_append] at hlead
    cases hfront : t.lead linkLimit ((SplitPath.ofText head).start d)
        (SplitPath.splitComponents head) with
    | error errno => simp [hfront] at hlead
    | ok found =>
      obtain ⟨d', links'⟩ := found
      have hshort := (length_encode_le_of_beginning hbegins).trans hlength
      refine absurd ?_ (hnowhere d')
      rw [resolve, if_neg (by simpa using hhead), if_neg (Nat.not_lt.2 hshort)]
      exact walk_look_directory_iff.2 ⟨links', hfront⟩

/-- The name of a directory leads to it. -/
theorem lead_name_directory {links : Nat} {n : Text} {p : Location} {mode : Nat} (hn : IsName n)
    (h : t.lookupName d n = .ok (p, some (.directory mode))) :
    t.lead links d [n] = .ok (.live p, links) := by
  obtain ⟨-, -, hdot, hdots⟩ := hn
  obtain ⟨hremoved, hshort, rfl, hentry⟩ := lookupName_ok_iff.1 h
  rw [lead]
  simp [hdot, hdots, hremoved, hshort, entry?_append_name, ← hentry, lead]

end Primitives.FileTree
