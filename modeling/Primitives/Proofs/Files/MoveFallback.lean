import Primitives.Files.FileSystem
import Primitives.Proofs.Files.MoveTargets

/-!
# Renaming and its fallback

A move renames. Where the host reports that renaming crosses devices, the move falls back to a request that
looks where the target leads first: into a directory, it moves the source under its own name. So the two
do not agree: a file moved to a directory stays where it is in the one case and goes into the directory in
the other one. Here it is shown when they agree.

## Main definitions

* `Request.MovesAlike`: a move by renaming and its fallback agree.
* `Request.Agrees`: the cases in which they do.

## Main results

* `FileSystem.movesAlike_iff`: they agree exactly in these cases.
-/

namespace Primitives

open FileTree PathText

namespace Request

variable {host : Host} {source target shown : Text}

/-! ### Renaming or copying -/

theorem renameOn_fails_of_null (h : hasNull source ∨ hasNull target) :
    (renameOn source target).runOn host = (.error .embeddedNull, host) := by
  rw [renameOn, runOn_change, outcome, if_pos (by simpa using h)]

theorem renameOrCopy_fails_of_null (h : hasNull source ∨ hasNull target) (shown : Text) :
    (renameOrCopy source target shown).Fails host := by
  refine ⟨.embeddedNull, ?_⟩
  rw [renameOrCopy, runOn_tryCatch_of_error (renameOn_fails_of_null h)]
  rfl

section

variable (hsource : hasNull source = false) (htarget : hasNull target = false)

include hsource htarget

theorem runOn_renameOn_of_ok {disk : Disk} (h : host.disk.rename source target = .ok disk) :
    (renameOn source target).runOn host = (.ok (), { host with disk }) := by
  rw [renameOn, runOn_change, outcome, if_neg (by simp [hsource, htarget]), h]
  rfl

theorem runOn_renameOrCopy_of_ok {disk : Disk} (h : host.disk.rename source target = .ok disk)
    (shown : Text) : (renameOrCopy source target shown).runOn host = (.ok (), { host with disk }) := by
  rw [renameOrCopy, runOn_tryCatch_of_ok (runOn_renameOn_of_ok hsource htarget h)]

/-- Where renaming is refused, a move by copying follows. -/
theorem runOn_renameOrCopy_of_refused (h : ∀ disk, host.disk.rename source target ≠ .ok disk)
    (shown : Text) : (renameOrCopy source target shown).runOn host =
      (moveByCopy source target shown).runOn host := by
  obtain ⟨errno, herror⟩ : ∃ errno, host.disk.rename source target = .error errno := by
    cases hrename : host.disk.rename source target with
    | error errno => exact ⟨errno, rfl⟩
    | ok disk => exact absurd hrename (h disk)
  have hrun : (renameOn source target).runOn host = (.error (.call errno [source, target]), host) := by
    rw [renameOn, runOn_change, outcome, if_neg (by simp [hsource, htarget]), herror]
    rfl
  rw [renameOrCopy, runOn_tryCatch_of_error hrun, if_neg (by simp)]

end

/-- A refused rename without an effect leaves files and links where they are, and the directories that
stay behind. -/
theorem comesToNothing_renameOrCopy_iff (hdisk : host.disk.WellFormed)
    (hsource : hasNull source = false) (htarget : hasNull target = false)
    (hdirectory : ¬ host.disk.leadsToDirectory target)
    (h : ∀ disk, host.disk.rename source target ≠ .ok disk) (shown : Text) :
    (renameOrCopy source target shown).ComesToNothing host ↔
      (host.disk.leadsToDirectory source → ¬ host.disk.isLink source →
        StaysBehind host source target shown) := by
  rw [comesToNothing_congr (runOn_renameOrCopy_of_refused hsource htarget h shown)]
  by_cases hleaf : host.disk.leadsToDirectory source ∧ ¬ host.disk.isLink source
  · rw [comesToNothing_moveByCopy_iff hdisk hsource hleaf.1 hleaf.2]
    exact ⟨fun hstays _ _ => hstays, fun hstays => hstays hleaf.1 hleaf.2⟩
  · have hfails : (moveByCopy source target shown).Fails host := by
      refine moveByCopy_fails hdisk (fun hlead => ?_) hdirectory h shown
      by_contra hlink
      exact hleaf ⟨hlead, hlink⟩
    exact iff_of_true hfails.comesToNothing fun hlead hlink => absurd ⟨hlead, hlink⟩ hleaf

/-! ### Moves onto directories -/

/-- A path that leads nowhere does not lead where another one does. -/
theorem sameTarget_ne_of_status {errno : Errno} (h : host.disk.status source true = .error errno) :
    host.disk.sameTarget source target ≠ .ok true := by
  simp only [Disk.status, if_true] at h
  unfold Disk.sameTarget
  cases hsource : host.disk.resolve .look source with
  | error errno' => simp
  | ok found =>
    cases htarget : host.disk.resolve .look target with
    | error errno' => simp
    | ok found' => cases found <;> simp_all

theorem runOn_isMoveOntoItself (hsource : hasNull source = false) (htarget : hasNull target = false)
    (host : Host) : (isMoveOntoItself source target).runOn host =
      (.ok ((host.disk.sameTarget source target).toOption.getD false && !host.disk.isLink source),
        host) := by
  have hsame : (isSameTarget source target).runOn host =
      (.ok ((host.disk.sameTarget source target).toOption.getD false), host) := by
    rw [runOn_isSameTarget]
    cases hstatus : host.disk.status source true with
    | ok status => simp [hsource, htarget]
    | error errno =>
      have hnot : (host.disk.sameTarget source target).toOption.getD false = false := by
        have hne : host.disk.sameTarget source target ≠ .ok true := sameTarget_ne_of_status hstatus
        cases hsame : host.disk.sameTarget source target with
        | error errno' => rfl
        | ok same =>
          obtain rfl : same = false := by simpa [hsame] using hne
          rfl
      simp [hsource, hnot]
  rw [isMoveOntoItself, runOn_bind_of_ok hsame]
  cases (host.disk.sameTarget source target).toOption.getD false <;> rfl

theorem moveTarget_fails (h : host.disk.isPresent (movedPath source target)) :
    (moveTarget source target).Fails host := by
  rw [movedPath] at h
  refine fails_bind_ask ?_
  rw [if_pos h]
  exact fails_throw _

theorem runOn_moveTarget (h : ¬ host.disk.isPresent (movedPath source target)) :
    (moveTarget source target).runOn host = (.ok (movedPath source target), host) := by
  rw [movedPath] at h
  rw [moveTarget, runOn_bind, runOn_ask]
  simp only [if_neg h]
  rfl

/-- A move to a path that leads to no directory renames to it. -/
theorem runOn_move_of_not_directory (h : ¬ host.disk.leadsToDirectory target) :
    (move source target).runOn host =
      (renameOrCopy source target target >>= fun _ => pure (some target)).runOn host := by
  rw [move, runOn_bind, runOn_ask]
  simp only [h, Bool.false_eq_true, if_false]

section

variable (hsource : hasNull source = false) (htarget : hasNull target = false)

include hsource htarget

theorem runOn_isMoveOntoItself_of_not (h : ¬ host.disk.IsOntoItself source target) :
    (isMoveOntoItself source target).runOn host = (.ok false, host) := by
  rw [runOn_isMoveOntoItself hsource htarget]
  cases hsame : host.disk.sameTarget source target with
  | error errno => rfl
  | ok same =>
    cases same with
    | false => rfl
    | true =>
      have hlink : host.disk.isLink source := by
        by_contra hlink
        exact h ⟨hsame, hlink⟩
      rw [hlink]
      rfl

variable (hdirectory : host.disk.leadsToDirectory target)

include hdirectory

/-- A directory that is moved onto itself is renamed. -/
theorem runOn_move_of_isOntoItself (h : host.disk.IsOntoItself source target) :
    (move source target).runOn host =
      (renameOn source target >>= fun _ => pure none).runOn host := by
  have hitself := runOn_isMoveOntoItself hsource htarget host
  simp only [h.1, h.2] at hitself
  rw [move, runOn_bind, runOn_ask]
  simp only [hdirectory, if_true]
  rw [runOn_bind_of_ok hitself]
  rfl

/-- A move into a directory fails where the directory holds the name of the source. -/
theorem move_fails_of_present (h : ¬ host.disk.IsOntoItself source target)
    (hpresent : host.disk.isPresent (movedPath source target)) : (move source target).Fails host := by
  have hitself := runOn_isMoveOntoItself_of_not hsource htarget h
  refine fails_bind_ask ?_
  simp only [hdirectory, if_true]
  exact fails_bind_of_ok hitself ((moveTarget_fails hpresent).bind _)

/-- A move into a directory renames to the name of the source there. -/
theorem runOn_move_into (h : ¬ host.disk.IsOntoItself source target)
    (hpresent : ¬ host.disk.isPresent (movedPath source target)) :
    (move source target).runOn host = (renameOrCopy source (movedPath source target) target >>=
      fun _ => pure (some (movedPath source target))).runOn host := by
  have hitself := runOn_isMoveOntoItself_of_not hsource htarget h
  rw [move, runOn_bind, runOn_ask]
  simp only [hdirectory, if_true]
  rw [runOn_bind_of_ok hitself]
  simp only [Bool.false_eq_true, if_false]
  rw [runOn_bind_of_ok (runOn_moveTarget hpresent)]

end

/-- The path that a move into a directory goes to has the null character if the directory has it, and only
if a path has it. -/
theorem hasNull_movedPath :
    (hasNull target → hasNull (movedPath source target)) ∧
      (hasNull source = false → hasNull target = false → hasNull (movedPath source target) = false) := by
  obtain ⟨hslash, hsuffix⟩ := baseName_spec (withoutTrailingSlashes source)
  obtain ⟨slashes, hsource, -⟩ := withoutTrailingSlashes_spec source
  have hname : ∀ c ∈ baseName (withoutTrailingSlashes source), c ∈ source := by
    intro c hc
    rw [hsource]
    exact List.mem_append_left slashes (hsuffix.subset hc)
  obtain ⟨h, slashes', heq, -, rfl, hslashes⟩ := joinTwo_eq (p := target) hslash
  simp only [movedPath, heq, hasNull, List.contains_iff_mem, Bool.eq_false_iff, ne_eq, List.mem_append]
  refine ⟨fun htarget => .inl (.inl htarget), fun hno hno' => ?_⟩
  rintro ((hc | hc) | hc)
  · exact hno' hc
  · exact absurd (hslashes _ hc) (by decide)
  · exact hno (hname _ hc)

theorem keeps_isMoveOntoItself (source target : Text) (host : Host) :
    (isMoveOntoItself source target).Keeps host := by
  refine (keeps_isSameTarget source target host).bind fun same => ?_
  cases same with
  | true => exact (keeps_ask (·.isLink source)).bind fun isLink => keeps_pure _
  | false => exact keeps_pure _

/-- No move takes a path with the null character. -/
theorem move_fails_of_null (h : hasNull source ∨ hasNull target) : (move source target).Fails host := by
  refine fails_bind_ask ?_
  by_cases hdirectory : host.disk.leadsToDirectory target
  · rw [if_pos hdirectory]
    refine (keeps_isMoveOntoItself source target host).bind_fails fun itself => ?_
    cases itself with
    | true => exact Fails.bind ⟨_, renameOn_fails_of_null h⟩ _
    | false =>
      have hnull : hasNull source ∨ hasNull (movedPath source target) := h.imp_right hasNull_movedPath.1
      by_cases hpresent : host.disk.isPresent (movedPath source target)
      · exact (moveTarget_fails hpresent).bind _
      · exact fails_bind_of_ok (runOn_moveTarget hpresent)
          ((renameOrCopy_fails_of_null hnull target).bind _)
  · rw [if_neg hdirectory]
    exact (renameOrCopy_fails_of_null h target).bind _

/-! ### Agreement -/

/-- The cases in which a move by renaming and its fallback agree. -/
inductive Agrees (host : Host) (source target : Text) : Prop
  /-- A path has the null character. -/
  | null (h : hasNull source ∨ hasNull target)
  /-- The target leads to no directory, and renaming succeeds. -/
  | renamed (hdirectory : ¬ host.disk.leadsToDirectory target) (disk : Disk)
      (h : host.disk.rename source target = .ok disk)
  /-- The target leads to no directory, renaming is refused, and what is moved is no directory or stays
  behind. -/
  | refused (hdirectory : ¬ host.disk.leadsToDirectory target)
      (h : ∀ disk, host.disk.rename source target ≠ .ok disk)
      (hstays : host.disk.leadsToDirectory source → ¬ host.disk.isLink source →
        StaysBehind host source target target)
  /-- A directory is moved onto itself. -/
  | itself (hdirectory : host.disk.leadsToDirectory target) (h : host.disk.IsOntoItself source target)
  /-- The directory at the target holds the name of the source, and renaming to it is refused. -/
  | taken (hdirectory : host.disk.leadsToDirectory target)
      (hpresent : host.disk.isPresent (movedPath source target))
      (h : ∀ disk, host.disk.rename source target ≠ .ok disk)
  /-- Renaming is refused to the directory and into it, and what is moved is no directory or stays
  behind. -/
  | refusedTwice (hdirectory : host.disk.leadsToDirectory target)
      (hpresent : ¬ host.disk.isPresent (movedPath source target))
      (h : ∀ disk, host.disk.rename source target ≠ .ok disk)
      (hinto : ∀ disk, host.disk.rename source (movedPath source target) ≠ .ok disk)
      (hstays : host.disk.leadsToDirectory source → ¬ host.disk.isLink source →
        StaysBehind host source (movedPath source target) target)
  /-- Renaming to what leads to the directory and renaming into it both succeed, between places that
  leave the same tree. -/
  | same (hdirectory : host.disk.leadsToDirectory target)
      (hpresent : ¬ host.disk.isPresent (movedPath source target)) (disk disk' : Disk)
      (h : host.disk.rename source target = .ok disk)
      (hinto : host.disk.rename source (movedPath source target) = .ok disk')
      (old new new' : Location) (e : Entry) (entry entry' : Option Entry)
      (horigin : host.disk.place source = .ok (old, some e))
      (hgoal : host.disk.place target = .ok (new, entry))
      (hgoal' : host.disk.place (movedPath source target) = .ok (new', entry'))
      (hsame : Disk.SameRename host.disk.tree old new new')

section

variable (hnull : ¬ (hasNull source ∨ hasNull target))

include hnull

theorem agrees_iff_of_not_directory (hdirectory : ¬ host.disk.leadsToDirectory target) :
    Agrees host source target ↔ (∃ disk, host.disk.rename source target = .ok disk) ∨
      (∀ disk, host.disk.rename source target ≠ .ok disk) ∧
        (host.disk.leadsToDirectory source → ¬ host.disk.isLink source →
          StaysBehind host source target target) := by
  constructor
  · intro hagrees
    cases hagrees with
    | null h => exact absurd h hnull
    | renamed _ disk h => exact .inl ⟨disk, h⟩
    | refused _ hrefused hstays => exact .inr ⟨hrefused, hstays⟩
    | itself h => exact absurd h hdirectory
    | taken h => exact absurd h hdirectory
    | refusedTwice h => exact absurd h hdirectory
    | same h => exact absurd h hdirectory
  · rintro (⟨disk, h⟩ | ⟨hrefused, hstays⟩)
    · exact .renamed hdirectory disk h
    · exact .refused hdirectory hrefused hstays

variable (hdirectory : host.disk.leadsToDirectory target)
  (hitself : ¬ host.disk.IsOntoItself source target)

include hdirectory hitself

theorem agrees_iff_of_present (hpresent : host.disk.isPresent (movedPath source target)) :
    Agrees host source target ↔ ∀ disk, host.disk.rename source target ≠ .ok disk := by
  refine ⟨fun hagrees => ?_, .taken hdirectory hpresent⟩
  cases hagrees with
  | null h => exact absurd h hnull
  | renamed h => exact absurd hdirectory h
  | refused h => exact absurd hdirectory h
  | itself _ h => exact absurd h hitself
  | taken _ _ hrefused => exact hrefused
  | refusedTwice _ h => exact absurd hpresent h
  | same _ h => exact absurd hpresent h

variable (hpresent : ¬ host.disk.isPresent (movedPath source target))

include hpresent

theorem agrees_iff_of_refused (hrefused : ∀ disk, host.disk.rename source target ≠ .ok disk) :
    Agrees host source target ↔
      (∀ disk, host.disk.rename source (movedPath source target) ≠ .ok disk) ∧
        (host.disk.leadsToDirectory source → ¬ host.disk.isLink source →
          StaysBehind host source (movedPath source target) target) := by
  refine ⟨fun hagrees => ?_,
    fun ⟨hinto, hstays⟩ => .refusedTwice hdirectory hpresent hrefused hinto hstays⟩
  cases hagrees with
  | null h => exact absurd h hnull
  | renamed h => exact absurd hdirectory h
  | refused h => exact absurd hdirectory h
  | itself _ h => exact absurd h hitself
  | taken _ h => exact absurd h hpresent
  | refusedTwice _ _ _ hinto hstays => exact ⟨hinto, hstays⟩
  | same _ _ disk _ h => exact absurd h (hrefused disk)

/-- Two renames agree between places that leave the same tree. -/
theorem agrees_iff_of_ok (hdisk : host.disk.WellFormed) {disk : Disk}
    (hrename : host.disk.rename source target = .ok disk) :
    Agrees host source target ↔ ∃ disk', host.disk.rename source (movedPath source target) = .ok disk' ∧
      Same disk.tree disk'.tree := by
  constructor
  · intro hagrees
    cases hagrees with
    | null h => exact absurd h hnull
    | renamed h => exact absurd hdirectory h
    | refused h => exact absurd hdirectory h
    | itself _ h => exact absurd h hitself
    | taken _ h => exact absurd h hpresent
    | refusedTwice _ _ hrefused => exact absurd hrename (hrefused disk)
    | same _ _ disk₁ disk₂ h hinto _ _ _ _ _ _ horigin hgoal hgoal' hsame =>
      obtain rfl : disk = disk₁ := Except.ok.inj (hrename.symm.trans h)
      exact ⟨disk₂, hinto, (Disk.same_rename_iff hdisk horigin hgoal hgoal' h hinto).2 hsame⟩
  · rintro ⟨disk', hinto, hsame⟩
    obtain ⟨old, new, e, entry, h, -⟩ := Disk.rename_ok_iff.1 hrename
    obtain ⟨old', new', e', entry', h', -⟩ := Disk.rename_ok_iff.1 hinto
    obtain ⟨rfl, heq⟩ := Prod.mk.inj (Except.ok.inj (h.origin.symm.trans h'.origin))
    obtain rfl := Option.some.inj heq
    exact .same hdirectory hpresent disk disk' hrename hinto old new new' e entry entry' h.origin h.goal
      h'.goal ((Disk.same_rename_iff hdisk h.origin h.goal h'.goal hrename hinto).1 hsame)

end

/-! ### Renames and moves -/

theorem alike_move_of_null (h : hasNull source ∨ hasNull target) :
    Alike (renameOn source target) (move source target) host := by
  have hrename : (renameOn source target).Fails host := ⟨_, renameOn_fails_of_null h⟩
  exact hrename.comesToNothing.alike_iff.2 (move_fails_of_null h).comesToNothing

section

variable (hdisk : host.disk.WellFormed) (hsource : hasNull source = false)
  (htarget : hasNull target = false)

include hdisk hsource htarget

/-- A rename and a request that renames first agree if they rename to the same path. -/
theorem alike_renameOrCopy_iff (hdirectory : ¬ host.disk.leadsToDirectory target) (shown : Text) :
    Alike (renameOn source target) (renameOrCopy source target shown) host ↔
      (∃ disk, host.disk.rename source target = .ok disk) ∨
        (∀ disk, host.disk.rename source target ≠ .ok disk) ∧
          (host.disk.leadsToDirectory source → ¬ host.disk.isLink source →
            StaysBehind host source target shown) := by
  by_cases hrename : ∃ disk, host.disk.rename source target = .ok disk
  · refine iff_of_true ?_ (.inl hrename)
    obtain ⟨disk, h⟩ := hrename
    refine alike_of_eq ?_
    rw [runOn_renameOn_of_ok hsource htarget h, runOn_renameOrCopy_of_ok hsource htarget h]
  · have hrefused : ∀ disk, host.disk.rename source target ≠ .ok disk := not_exists.1 hrename
    have hfails : (renameOn source target).Fails host := fails_change hrefused
    rw [hfails.comesToNothing.alike_iff,
      comesToNothing_renameOrCopy_iff hdisk hsource htarget hdirectory hrefused]
    exact ⟨fun hstays => .inr ⟨hrefused, hstays⟩, fun h => (h.resolve_left hrename).2⟩

variable (hdirectory : host.disk.leadsToDirectory target)
  (hitself : ¬ host.disk.IsOntoItself source target)
  (hpresent : ¬ host.disk.isPresent (movedPath source target))

include hpresent in
omit hdisk hsource htarget in
theorem not_leadsToDirectory_movedPath : ¬ host.disk.leadsToDirectory (movedPath source target) := by
  intro hlead
  obtain ⟨d, hd⟩ := Disk.leadsToDirectory_iff.1 hlead
  exact hpresent (Disk.isPresent_iff.2 (.inl ⟨d, hd⟩))

include hdirectory hitself hpresent

omit hdisk hpresent in
/-- Where a directory holds the name of the source, renaming to it has to be refused. -/
theorem alike_move_iff_of_present (hpresent : host.disk.isPresent (movedPath source target)) :
    Alike (renameOn source target) (move source target) host ↔
      ∀ disk, host.disk.rename source target ≠ .ok disk := by
  have hfails := move_fails_of_present hsource htarget hdirectory hitself hpresent
  constructor
  · intro halike disk h
    have hresult := halike.result
    rw [runOn_renameOn_of_ok hsource htarget h, hfails.comesToNothing.failed] at hresult
    exact nomatch hresult
  · intro hrefused
    have hrename : (renameOn source target).Fails host := fails_change hrefused
    exact hrename.comesToNothing.alike_iff.2 hfails.comesToNothing

/-- Where renaming to a directory is refused, a move into it has to come to nothing. -/
theorem alike_move_iff_of_refused (h : ∀ disk, host.disk.rename source target ≠ .ok disk) :
    Alike (renameOn source target) (move source target) host ↔
      (∀ disk, host.disk.rename source (movedPath source target) ≠ .ok disk) ∧
        (host.disk.leadsToDirectory source → ¬ host.disk.isLink source →
          StaysBehind host source (movedPath source target) target) := by
  have hmoved := hasNull_movedPath.2 hsource htarget
  have hfails : (renameOn source target).Fails host := fails_change h
  rw [alike_congr (runOn_move_into hsource htarget hdirectory hitself hpresent), alike_bind_pure_iff,
    hfails.comesToNothing.alike_iff]
  by_cases hinto : ∃ disk', host.disk.rename source (movedPath source target) = .ok disk'
  · obtain ⟨disk', h'⟩ := hinto
    refine iff_of_false (fun hnothing => ?_) fun ⟨hno, _⟩ => hno disk' h'
    have hfailed := hnothing.failed
    rw [runOn_renameOrCopy_of_ok hsource hmoved h'] at hfailed
    exact nomatch hfailed
  · have hrefused := not_exists.1 hinto
    rw [comesToNothing_renameOrCopy_iff hdisk hsource hmoved (not_leadsToDirectory_movedPath hpresent)
      hrefused]
    exact ⟨fun hstays => ⟨hrefused, hstays⟩, fun hstays => hstays.2⟩

/-- Where renaming to what leads to a directory succeeds and renaming into it is refused, the move into it
fails. -/
theorem not_alike_move_of_refused {disk : Disk} (h : host.disk.rename source target = .ok disk)
    (hinto : ∀ disk, host.disk.rename source (movedPath source target) ≠ .ok disk) :
    ¬ Alike (renameOn source target) (move source target) host := by
  have hmoved := hasNull_movedPath.2 hsource htarget
  rw [alike_congr (runOn_move_into hsource htarget hdirectory hitself hpresent), alike_bind_pure_iff]
  have hfailed : ((renameOrCopy source (movedPath source target) target).runOn host).1.isOk = false := by
    rw [runOn_renameOrCopy_of_refused hsource hmoved hinto]
    by_cases hleaf : host.disk.leadsToDirectory source ∧ ¬ host.disk.isLink source
    · exact isOk_moveByCopy_movedPath hdisk hleaf.1 hleaf.2 hdirectory hitself h hinto target
    · refine (moveByCopy_fails hdisk (fun hlead => ?_) (not_leadsToDirectory_movedPath hpresent) hinto
        target).comesToNothing.failed
      by_contra hlink
      exact hleaf ⟨hlead, hlink⟩
  intro halike
  have hresult := halike.result
  rw [runOn_renameOn_of_ok hsource htarget h, hfailed] at hresult
  exact nomatch hresult

/-- Where renaming to what leads to a directory succeeds, renaming into it has to leave the same tree. -/
theorem alike_move_iff_of_ok {disk : Disk} (h : host.disk.rename source target = .ok disk) :
    Alike (renameOn source target) (move source target) host ↔
      ∃ disk', host.disk.rename source (movedPath source target) = .ok disk' ∧
        Same disk.tree disk'.tree := by
  by_cases hinto : ∃ disk', host.disk.rename source (movedPath source target) = .ok disk'
  · obtain ⟨disk', h'⟩ := hinto
    have hrun := runOn_renameOn_of_ok hsource htarget h
    have hrun' := runOn_renameOrCopy_of_ok hsource (hasNull_movedPath.2 hsource htarget) h' target
    rw [alike_congr (runOn_move_into hsource htarget hdirectory hitself hpresent), alike_bind_pure_iff]
    constructor
    · intro halike
      have htree := halike.tree
      rw [hrun, hrun'] at htree
      exact ⟨disk', h', htree⟩
    · rintro ⟨disk'', h'', hsame⟩
      obtain rfl : disk' = disk'' := Except.ok.inj (h'.symm.trans h'')
      exact ⟨by rw [hrun, hrun'], by rw [hrun, hrun']; exact hsame⟩
  · have hrefused := not_exists.1 hinto
    refine iff_of_false ?_ fun ⟨disk', h', _⟩ => hrefused disk' h'
    exact not_alike_move_of_refused hdisk hsource htarget hdirectory hitself hpresent h hrefused

end

/-- A rename and a move agree exactly in the listed cases. -/
theorem alike_move_iff (hdisk : host.disk.WellFormed) (source target : Text) :
    Alike (renameOn source target) (move source target) host ↔ Agrees host source target := by
  by_cases hnull : hasNull source ∨ hasNull target
  · exact iff_of_true (alike_move_of_null hnull) (.null hnull)
  obtain ⟨hsource, htarget⟩ : hasNull source = false ∧ hasNull target = false := by simpa using hnull
  by_cases hdirectory : host.disk.leadsToDirectory target
  · by_cases hitself : host.disk.IsOntoItself source target
    · refine iff_of_true ?_ (.itself hdirectory hitself)
      rw [alike_congr (runOn_move_of_isOntoItself hsource htarget hdirectory hitself),
        alike_bind_pure_iff]
      exact alike_of_eq rfl
    by_cases hpresent : host.disk.isPresent (movedPath source target)
    · rw [agrees_iff_of_present hnull hdirectory hitself hpresent]
      exact alike_move_iff_of_present hsource htarget hdirectory hitself hpresent
    by_cases hrename : ∃ disk, host.disk.rename source target = .ok disk
    · obtain ⟨disk, h⟩ := hrename
      rw [agrees_iff_of_ok hnull hdirectory hitself hpresent hdisk h]
      exact alike_move_iff_of_ok hdisk hsource htarget hdirectory hitself hpresent h
    · rw [agrees_iff_of_refused hnull hdirectory hitself hpresent (not_exists.1 hrename)]
      exact alike_move_iff_of_refused hdisk hsource htarget hdirectory hitself hpresent
        (not_exists.1 hrename)
  · rw [agrees_iff_of_not_directory hnull hdirectory,
      alike_congr (runOn_move_of_not_directory hdirectory), alike_bind_pure_iff]
    exact alike_renameOrCopy_iff hdisk hsource htarget hdirectory target

end Request

end Primitives
