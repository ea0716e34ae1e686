import Primitives.Proofs.Files.CopiedTrees

/-!
# Moves

A move by copying of a directory copies it and then removes it. It comes to nothing, which means that it
ends with an error and the tree is as before, in four cases: the target lies inside the source by its
letters, the source cannot be listed, nothing is made for the copy, or the copy is removed again together
with the source, which cannot be removed itself.

A move renames where it can and moves by copying otherwise. What it renames to is the target or, if this
leads to a directory, the name of the source in this directory.

## Main definitions

* `Request.ComesToNothing`, `Request.Alike`: requests without effect and requests that end alike.
* `Request.StaysBehind`: the directories that a move by copying leaves where they are.

## Main results

* `Request.comesToNothing_moveByCopy_iff`: which directories stay behind.
-/

namespace Primitives

open FileTree PathText

namespace Request

variable {α β : Type} {host : Host} {source target shown : Text}

/-! ### Requests that end alike -/

/-- A request ends with an error and leaves the tree with what it held. -/
structure ComesToNothing (request : Request α) (host : Host) : Prop where
  failed : (request.runOn host).1.isOk = false
  same : Same (request.runOn host).2.disk.tree host.disk.tree

/-- Two requests both succeed or both fail, and leave trees that hold the same. -/
structure Alike (a : Request α) (b : Request β) (host : Host) : Prop where
  result : (a.runOn host).1.isOk = (b.runOn host).1.isOk
  tree : Same (a.runOn host).2.disk.tree (b.runOn host).2.disk.tree

theorem Fails.comesToNothing {request : Request α} (h : request.Fails host) :
    request.ComesToNothing host := by
  obtain ⟨e, hrun⟩ := h
  exact ⟨by rw [hrun]; rfl, by rw [hrun]; exact Same.refl _⟩

theorem comesToNothing_congr {a b : Request α} (h : a.runOn host = b.runOn host) :
    a.ComesToNothing host ↔ b.ComesToNothing host :=
  ⟨fun ha => ⟨h ▸ ha.failed, h ▸ ha.same⟩, fun hb => ⟨h ▸ hb.failed, h ▸ hb.same⟩⟩

theorem alike_of_eq {a b : Request α} (h : a.runOn host = b.runOn host) : Alike a b host :=
  ⟨congrArg (·.1.isOk) h, h ▸ Same.refl _⟩

theorem alike_congr {a : Request α} {b c : Request β} (h : b.runOn host = c.runOn host) :
    Alike a b host ↔ Alike a c host :=
  ⟨fun hb => ⟨h ▸ hb.result, h ▸ hb.tree⟩, fun hc => ⟨h ▸ hc.result, h ▸ hc.tree⟩⟩

/-- Only what comes to nothing ends like a request that comes to nothing. -/
theorem ComesToNothing.alike_iff {a : Request α} {b : Request β} (ha : a.ComesToNothing host) :
    Alike a b host ↔ b.ComesToNothing host :=
  ⟨fun h => ⟨h.result.symm.trans ha.failed, h.tree.symm.trans ha.same⟩,
    fun hb => ⟨ha.failed.trans hb.failed.symm, ha.same.trans hb.same.symm⟩⟩

/-- A value that is given back in the end does not matter. -/
theorem alike_bind_pure_iff {γ : Type} {a : Request α} {b : Request β} {c : γ} :
    Alike a (b >>= fun _ => pure c) host ↔ Alike a b host := by
  have hrun : ((b >>= fun _ => pure c).runOn host).1.isOk = (b.runOn host).1.isOk ∧
      ((b >>= fun _ => pure c).runOn host).2 = (b.runOn host).2 := by
    rw [runOn_bind]
    rcases b.runOn host with ⟨_ | x, host'⟩ <;> exact ⟨rfl, rfl⟩
  exact ⟨fun h => ⟨h.result.trans hrun.1, hrun.2 ▸ h.tree⟩,
    fun h => ⟨h.result.trans hrun.1.symm, hrun.2.symm ▸ h.tree⟩⟩

/-! ### Directories moved by copying -/

theorem keeps_isInside (outer inner : Text) (host : Host) : (isInside outer inner).Keeps host := by
  unfold isInside
  dsimp only
  split
  · exact keeps_pure _
  · exact (keeps_look _ _).bind fun directory => keeps_pure _

/-- A directory that a move by copying leaves where it is, with nothing at the target. -/
inductive StaysBehind (host : Host) (source target shown : Text) : Prop
  /-- The target is not known to lie outside the source. -/
  | inside (h : ((isInside source shown).runOn host).1 ≠ .ok false)
  /-- The source cannot be listed. -/
  | unlisted (errno : Errno) (h : host.disk.listNames source = .error errno)
  /-- Making the target and the missing directories in front of it has no effect. -/
  | unmade (h : Same ((makeDirectories false target).runOn host).2.disk.tree host.disk.tree)
  /-- The copy lies in the source and is removed with what this holds, but the source is not. -/
  | undone (host₁ : Host) (hcopy : (copyTree false source target).runOn host = (.ok (), host₁))
    (hremove : ((removeTree source).runOn host₁).1.isOk = false)
    (h : Same ((removeTree source).runOn host₁).2.disk.tree host.disk.tree)

/-- A directory is moved by copying and removing it, unless the target lies in it. -/
theorem runOn_moveByCopy_directory (hdirectory : host.disk.leadsToDirectory source)
    (hlink : ¬ host.disk.isLink source) (target shown : Text) :
    (moveByCopy source target shown).runOn host = (do
      if ← isInside source shown then throw (.intoItself source shown)
      copyTree false source target
      removeTree source : Request Unit).runOn host := by
  unfold moveByCopy
  rw [runOn_bind, runOn_ask]
  simp only [hlink, Bool.false_eq_true, if_false]
  rw [runOn_bind, runOn_ask]
  simp only [hdirectory, if_true]

/-- Copying a directory and removing it comes to nothing where the copy does, and where the copy is removed
again. -/
theorem comesToNothing_copy_iff (hdisk : host.disk.WellFormed) (hnull : hasNull source = false)
    (hinside : ((isInside source shown).runOn host).1 = .ok false) :
    (copyTree false source target >>= fun _ => removeTree source).ComesToNothing host ↔
      StaysBehind host source target shown := by
  cases hnames : host.disk.listNames source with
  | error errno =>
    have hcopy : (copyTree false source target).Fails host :=
      fails_bind_look fun names h => nomatch hnames.symm.trans h
    exact iff_of_true (hcopy.bind _).comesToNothing (.unlisted errno hnames)
  | ok names =>
    by_cases hmake : Same ((makeDirectories false target).runOn host).2.disk.tree host.disk.tree
    · exact iff_of_true ((copyTree_fails hdisk hmake source).bind _).comesToNothing (.unmade hmake)
    · have hdiffer := not_same_of_copyTree hnull hnames hmake
      rcases hcopy : (copyTree false source target).runOn host with ⟨e | _, host₁⟩
      · have hrun := runOn_bind_of_error hcopy fun _ => removeTree source
        rw [hcopy] at hdiffer
        refine iff_of_false (fun h => hdiffer (by simpa [hrun] using h.same)) fun h => ?_
        cases h with
        | inside h => exact h hinside
        | unlisted errno h => exact nomatch hnames.symm.trans h
        | unmade h => exact hmake h
        | undone host₂ hcopy' => exact nomatch hcopy.symm.trans hcopy'
      · have hrun := runOn_bind_of_ok hcopy fun _ => removeTree source
        constructor
        · rintro ⟨hfailed, hsame⟩
          rw [hrun] at hfailed hsame
          exact .undone host₁ hcopy hfailed hsame
        · intro h
          cases h with
          | inside h => exact absurd hinside h
          | unlisted errno h => exact nomatch hnames.symm.trans h
          | unmade h => exact absurd h hmake
          | undone host₂ hcopy' hremove hsame =>
            obtain rfl : host₁ = host₂ := (Prod.mk.inj (hcopy.symm.trans hcopy')).2
            exact ⟨by rw [hrun]; exact hremove, by rw [hrun]; exact hsame⟩

/-- A move by copying leaves a directory where it is, and adds nothing, in four cases. -/
theorem comesToNothing_moveByCopy_iff (hdisk : host.disk.WellFormed) (hnull : hasNull source = false)
    (hdirectory : host.disk.leadsToDirectory source) (hlink : ¬ host.disk.isLink source) :
    (moveByCopy source target shown).ComesToNothing host ↔ StaysBehind host source target shown := by
  have hrun := runOn_moveByCopy_directory hdirectory hlink target shown
  have hkeeps := keeps_isInside source shown host
  rcases hinside : (isInside source shown).runOn host with ⟨inside, host'⟩
  obtain rfl : host' = host := (congrArg Prod.snd hinside).symm.trans hkeeps
  by_cases hout : inside = .ok false
  · subst hout
    rw [runOn_bind_of_ok hinside] at hrun
    rw [← comesToNothing_copy_iff hdisk hnull (congrArg Prod.fst hinside)]
    exact comesToNothing_congr hrun
  · refine iff_of_true (Fails.comesToNothing ?_) (.inside (by rw [hinside]; exact hout))
    unfold Fails
    rw [hrun]
    cases inside with
    | error e => exact ⟨e, runOn_bind_of_error hinside _⟩
    | ok inside =>
      obtain rfl : inside = true := by simpa using hout
      rw [runOn_bind_of_ok hinside]
      exact ⟨_, rfl⟩

end Request

end Primitives
