import Primitives.Proofs.Files.Renames
import Primitives.Proofs.Files.Runs

/-!
# Copies

A move by copying makes the target and then removes the source. Where a file or a link cannot be renamed
to a path that leads to no directory, it cannot be copied there either, so that the move by copying fails
and leaves the host as it is. This is not so for a directory, of which the copy can be made in places that
no rename reaches.

## Main results

* `Request.moveByCopy_fails`: moving a file or a link by copying fails where renaming does.
-/

namespace Primitives

open FileTree Disk

/-! ### Places that nothing can be made at -/

namespace Disk

variable {disk : Disk} {source target : Text}

/-- A path that has no place unless it asks for a directory. -/
def HasNoPlace (disk : Disk) (path : Text) : Prop :=
  ∀ p entry, disk.place path = .ok (p, entry) → asksForDirectory path = true

/-- A path that a file or a link cannot be renamed to has no place for it. -/
theorem hasNoPlace_of_rename {old : Location} {e : Entry} (hdisk : disk.WellFormed)
    (horigin : disk.place source = .ok (old, some e)) (he : ¬ IsDirectoryEntry e)
    (hsource : asksForDirectory source = false) (htarget : ¬ disk.leadsToDirectory target)
    (hrefused : ∀ disk', disk.rename source target ≠ .ok disk') : disk.HasNoPlace target := by
  intro p entry hplace
  by_contra hslash
  have hentry : ∀ x, entry = some x → ¬ IsDirectoryEntry x := by
    rintro x rfl ⟨mode, rfl⟩
    exact htarget
      (leadsToDirectory_iff.2 ⟨_, resolve_of_place_directory Purpose.look_ne_write hplace⟩)
  obtain ⟨disk', hrename⟩ :=
    exists_rename hdisk horigin hplace he hentry hsource (by simpa using hslash)
  exact hrefused disk' hrename

theorem HasNoPlace.makeLink_ne_ok (h : disk.HasNoPlace target) (link : Text) (disk' : Disk) :
    disk.makeLink link target ≠ .ok disk' := by
  intro hmake
  obtain ⟨p, hplace, hslash, -⟩ := makeLink_ok hmake
  simp [h p none hplace] at hslash

theorem HasNoPlace.writeBytes_ne_ok (h : disk.HasNoPlace target) (bytes : Bytes) (append : Bool)
    (disk' : Disk) : disk.writeBytes target bytes append ≠ .ok disk' := by
  unfold writeBytes
  cases hplace : disk.place target with
  | error errno =>
    rcases resolve_of_place_error hplace with ⟨d, hresolve⟩ | hnowhere
    · simp [hresolve]
    · obtain ⟨errno', hresolve⟩ := hnowhere .write
      simp [hresolve]
  | ok found =>
    obtain ⟨p, entry⟩ := found
    obtain ⟨links, parent, n, -, -, -, hn, -, hresolve⟩ := exists_walk_of_place hplace
    rw [hresolve, h p entry hplace, walk_name _ _ _ _ hn]
    simp

end Disk

namespace Request

variable {host : Host} {source target : Text}

/-- Comparing what two paths lead to leaves the host as it is. -/
theorem runOn_isSameTarget (source target : Text) (host : Host) :
    (isSameTarget source target).runOn host =
      (if hasNull source then .error .embeddedNull
      else
        match host.disk.status source true with
        | .error _ => .ok false
        | .ok _ =>
          if hasNull target then .error .embeddedNull
          else .ok ((host.disk.sameTarget source target).toOption.getD false), host) := by
  unfold isSameTarget
  by_cases hsource : hasNull source
  · simp [hsource]
  · cases hstatus : host.disk.status source true with
    | error errno => simp [hsource, hstatus, runOn_bind]
    | ok status => by_cases htarget : hasNull target <;> simp [hsource, htarget, hstatus, runOn_bind]

theorem keeps_isSameTarget (source target : Text) (host : Host) :
    (isSameTarget source target).Keeps host := by
  rw [Keeps, runOn_isSameTarget]

/-- The bytes of a file are not copied to a path without a place. -/
theorem copyBytes_fails
    (h : ∀ bytes, host.disk.readBytes source = .ok bytes → host.disk.HasNoPlace target)
    (shown : Text) : (copyBytes shown source target).Fails host := by
  have hcopy : ∀ bytes, host.disk.readBytes source = .ok bytes →
      (tryCatch (change [target] (·.writeBytes target bytes false)) fun e => do
        let present ← ask (·.isPresent target)
        if e = .call .isDirectory [target] && !present then throw (.missingDirectory target)
        else throw e).Fails host := by
    intro bytes hbytes
    refine (fails_change ((h bytes hbytes).writeBytes_ne_ok bytes false)).tryCatch fun e => fails_bind_ask ?_
    split <;> exact fails_throw _
  unfold copyBytes
  refine (keeps_isSameTarget source target host).bind_fails fun same => ?_
  cases same with
  | true => exact fails_throw _
  | false =>
    by_cases hnull : hasNull source || hasNull target
    · simp only [hnull]
      exact fails_throw _
    · simp only [hnull]
      exact fails_bind_look hcopy

/-- Moving anything but a directory by copying fails where renaming fails, and changes nothing. -/
theorem moveByCopy_fails (hdisk : host.disk.WellFormed)
    (hsource : host.disk.leadsToDirectory source → host.disk.isLink source)
    (htarget : ¬ host.disk.leadsToDirectory target)
    (hrefused : ∀ disk, host.disk.rename source target ≠ .ok disk) (shown : Text) :
    (moveByCopy source target shown).Fails host := by
  unfold moveByCopy
  refine fails_bind_ask ?_
  by_cases hlink : host.disk.isLink source
  · rw [if_pos hlink]
    obtain ⟨hslash, p, link, hplace⟩ := isLink_iff_place.1 hlink
    have hnone := hasNoPlace_of_rename hdisk hplace (fun ⟨mode, heq⟩ => nomatch heq) hslash htarget
      hrefused
    exact fails_bind_look fun link _ => (fails_change (hnone.makeLink_ne_ok link)).bind _
  · rw [if_neg hlink]
    refine fails_bind_ask ?_
    rw [if_neg fun hdirectory => hlink (hsource hdirectory)]
    have hnone : ∀ bytes, host.disk.readBytes source = .ok bytes → host.disk.HasNoPlace target := by
      intro bytes hbytes
      obtain ⟨found, hresolve, hfound⟩ := Outcome.bind_eq_ok_iff.1 hbytes
      cases found with
      | file p mode content =>
        obtain ⟨hplace, hslash⟩ := place_of_resolve_file hresolve hlink
        exact hasNoPlace_of_rename hdisk hplace (fun ⟨mode, heq⟩ => nomatch heq) hslash htarget hrefused
      | _ => simp at hfound
    have hcopy : (copyFile source target).Fails host := by
      refine fails_bind_of_ok (a := target) ?_ ?_
      · simp [copyTarget, runOn_bind, htarget]
      · exact (copyBytes_fails hnone _).bind _
    exact hcopy.discard.bind _

end Request

end Primitives
