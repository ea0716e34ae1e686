import Primitives.Proofs.Files.Copies
import Primitives.Proofs.Files.NewDirectories

/-!
# Copied trees

A copy of a directory begins with the directory that it goes to, and from there on nothing is removed. So
it leaves the tree as it is exactly if the source cannot be listed or making this directory changes nothing,
and then it fails: where making the directory succeeds without a change, the directory is not there, and
no entry can be copied into it.

## Main definitions

* `Host.Grows`: a host that holds entries wherever another one does.
* `Request.RespectedByCopies`: relations that the calls of a copy respect.

## Main results

* `Request.RespectedByCopies.copyTreeIn`: a copy respects such a relation.
* `Request.copyTree_fails`, `Request.not_same_of_copyTree`: when a copy leaves the tree as it is.
-/

namespace Primitives

open FileTree PathText

/-- A host that has an entry wherever another one has one. -/
def Host.Grows (a b : Host) : Prop :=
  ∀ p, (a.disk.tree.lookup p).isSome → (b.disk.tree.lookup p).isSome

namespace Host.Grows

theorem refl (host : Host) : host.Grows host :=
  fun _ h => h

theorem trans (a b c : Host) (hab : a.Grows b) (hbc : b.Grows c) : a.Grows c :=
  fun p h => hbc p (hab p h)

theorem of_adds {a b : Host} (h : a.Adds b) : a.Grows b := by
  intro p hsome
  obtain ⟨x, hx⟩ := Option.isSome_iff_exists.1 hsome
  rw [h.keeps p x hx]
  rfl

theorem put (host : Host) (p : Location) (e : Entry) :
    host.Grows { host with disk := { host.disk with tree := host.disk.tree.put p e } } := by
  intro q hsome
  simp only [lookup_put]
  split
  · rfl
  · exact hsome

end Host.Grows

namespace Request

/-! ### Parts of a copy -/

/-- Copies one entry of a directory: a link as a link, a directory as a tree, anything else as a file. -/
def copyEntry (existing : Bool) (depth : Nat) (name origin goal : Text) : Request (List CopyFailure) := do
  match ← ask (·.status origin false) with
  | .ok .link =>
    let link ← look [origin] (·.readLink origin)
    change [link, goal] (·.makeLink link goal)
  | .ok (.directory _) => copyTreeIn existing depth origin goal
  | _ => discard (copyFileAs ("<DirEntry " ++ name.quoted ++ ">") origin goal)
  return []

/-- Lists an error instead of ending with it. -/
def collect (request : Request (List CopyFailure)) (failures : HostError → List CopyFailure) :
    Request (List CopyFailure) :=
  tryCatch request fun e => if e = .embeddedNull then throw e else return failures e

/-- Copies the entries of a directory and then its permission bits to a directory that was made for it. -/
def copyContents (existing : Bool) (depth : Nat) (source target : Text) (names : List Text) :
    Request Unit := do
  let failures ← names.mapM fun name =>
    let origin := joinTwo source name
    let goal := joinTwo target name
    collect (copyEntry existing depth name origin goal) (·.failuresAt origin goal)
  let last ← collect (do copyMode source target; return []) fun e => [.entry source target e.message]
  let all := failures.flatten ++ last
  if !all.isEmpty then throw (.incompleteCopy all)

theorem copyTreeIn_succ (existing : Bool) (depth : Nat) (source target : Text) :
    copyTreeIn existing (depth + 1) source target = (do
      let names ← look [source] (·.listNames source)
      makeDirectories existing target
      copyContents existing depth source target names) :=
  rfl

/-! ### Nothing is removed -/

/-- A relation between hosts that the calls respect which make and change entries. -/
structure RespectedByCopies (R : Host → Host → Prop) : Prop where
  refl : ∀ host, R host host
  trans : ∀ a b c, R a b → R b c → R a c
  makeDirectory : ∀ (host : Host) path disk, host.disk.makeDirectory path = .ok disk →
    R host { host with disk }
  makeLink : ∀ (host : Host) link path disk, host.disk.makeLink link path = .ok disk →
    R host { host with disk }
  writeBytes : ∀ (host : Host) path bytes append disk, host.disk.writeBytes path bytes append = .ok disk →
    R host { host with disk }
  setMode : ∀ (host : Host) path mode disk, host.disk.setMode path mode = .ok disk →
    R host { host with disk }

namespace RespectedByCopies

variable {R : Host → Host → Prop} (hR : RespectedByCopies R)

include hR

theorem throw {α : Type} (e : HostError) : (throw e : Request α).Respects R :=
  respects_throw hR.refl e

theorem pure {α : Type} (a : α) : (pure a : Request α).Respects R :=
  respects_pure hR.refl a

theorem copyMode (source target : Text) : (copyMode source target).Respects R :=
  (respects_look hR.refl _ _).bind hR.trans fun status =>
    respects_change hR.refl fun host disk => hR.setMode host target status.mode disk

theorem copyBytes (shown source target : Text) : (copyBytes shown source target).Respects R := by
  have hsame : (isSameTarget source target).Respects R := by
    intro host
    rw [keeps_isSameTarget source target host]
    exact hR.refl host
  refine hsame.bind hR.trans fun same => ?_
  cases same with
  | true => exact hR.throw _
  | false =>
    by_cases hnull : hasNull source || hasNull target
    · simp only [hnull]
      exact hR.throw _
    · simp only [hnull]
      refine (respects_look hR.refl _ _).bind hR.trans fun bytes => ?_
      refine Respects.tryCatch hR.trans (respects_change hR.refl fun host disk =>
        hR.writeBytes host target bytes false disk) fun e => ?_
      refine (respects_ask hR.refl _).bind hR.trans fun present => ?_
      split
      · exact hR.throw _
      · exact hR.throw _

theorem copyFileAs (shown source target : Text) : (copyFileAs shown source target).Respects R := by
  have htarget : (copyTarget source target).Respects R := by
    refine (respects_ask hR.refl _).bind hR.trans fun inside => ?_
    split <;> exact hR.pure _
  refine htarget.bind hR.trans fun target => ?_
  refine (hR.copyBytes shown source target).bind hR.trans fun _ => ?_
  exact (hR.copyMode source target).bind hR.trans fun _ => hR.pure _

theorem collect {request : Request (List CopyFailure)} (h : request.Respects R)
    (failures : HostError → List CopyFailure) : (collect request failures).Respects R := by
  refine h.tryCatch hR.trans fun e => ?_
  split
  · exact hR.throw _
  · exact hR.pure _

theorem copyEntry {existing : Bool} {depth : Nat}
    (h : ∀ source target, (copyTreeIn existing depth source target).Respects R)
    (name origin goal : Text) : (copyEntry existing depth name origin goal).Respects R := by
  have hdone : ∀ a : Request Unit, a.Respects R →
      (a >>= fun _ => Pure.pure ([] : List CopyFailure)).Respects R :=
    fun a ha => ha.bind hR.trans fun _ => hR.pure []
  refine (respects_ask hR.refl _).bind hR.trans fun status => ?_
  dsimp only
  split
  · refine (respects_look hR.refl _ _).bind hR.trans fun link => hdone _ ?_
    exact respects_change hR.refl fun host disk => hR.makeLink host link goal disk
  · exact hdone _ (h _ _)
  · exact hdone _ (hR.copyFileAs _ _ _).discard

theorem copyContents {existing : Bool} {depth : Nat}
    (h : ∀ source target, (copyTreeIn existing depth source target).Respects R)
    (source target : Text) (names : List Text) :
    (copyContents existing depth source target names).Respects R := by
  refine (Respects.mapM hR.refl hR.trans fun name _ => hR.collect (hR.copyEntry h _ _ _) _).bind
    hR.trans fun failures => ?_
  have hmode := (hR.copyMode source target).bind hR.trans fun _ => hR.pure ([] : List CopyFailure)
  refine (hR.collect hmode _).bind hR.trans fun last => ?_
  dsimp only
  split
  · exact hR.throw _
  · exact hR.pure _

/-- A copy respects what the calls respect that it consists of. -/
theorem copyTreeIn (existing : Bool) (depth : Nat) (source target : Text) :
    (copyTreeIn existing depth source target).Respects R := by
  induction depth generalizing source target with
  | zero => exact respects_change hR.refl fun _ _ h => nomatch h
  | succ depth ih =>
    rw [copyTreeIn_succ]
    refine (respects_look hR.refl _ _).bind hR.trans fun names => ?_
    refine (makeDirectories_respects hR.refl hR.trans hR.makeDirectory existing target).bind
      hR.trans fun _ => ?_
    exact hR.copyContents ih source target names

end RespectedByCopies

/-- The calls of a copy remove nothing. -/
theorem grows_respectedByCopies : RespectedByCopies Host.Grows where
  refl := Host.Grows.refl
  trans := Host.Grows.trans
  makeDirectory host path disk h := Host.Grows.of_adds (Host.Adds.of_makeDirectory host path disk h)
  makeLink host link path disk h := by
    obtain ⟨p, -, -, rfl⟩ := Disk.makeLink_ok h
    exact Host.Grows.put host p _
  writeBytes host path bytes append disk h := by
    obtain ⟨target, p, -, -, rfl⟩ := Disk.writeBytes_ok_iff.1 h
    exact Host.Grows.put host p _
  setMode host path mode disk h := by
    rcases Disk.setMode_ok h with rfl | ⟨p, -, content, -, rfl⟩ | ⟨d, -, -, rfl⟩
    · exact Host.Grows.refl host
    · exact Host.Grows.put host p _
    · exact Host.Grows.put host d.location _

/-! ### Nothing is copied -/

section

variable {host : Host} {source target : Text}

theorem keeps_collect {request : Request (List CopyFailure)} (h : request.Keeps host)
    (failures : HostError → List CopyFailure) : (collect request failures).Keeps host := by
  refine h.tryCatch fun e => ?_
  split
  · exact keeps_throw e
  · exact keeps_pure _

/-- A file is not copied to a path that is nowhere. -/
theorem copyFileAs_fails (h : host.disk.IsNowhere target) (shown source : Text) :
    (copyFileAs shown source target).Fails host := by
  have hnone : host.disk.HasNoPlace target := fun p entry hplace => absurd hplace h.place_ne_ok
  refine fails_bind_of_ok (a := target) ?_ ?_
  · simp [copyTarget, runOn_bind, h.not_leads]
  · exact (copyBytes_fails (fun _ _ => hnone) shown).bind _

theorem copyMode_fails (h : host.disk.IsNowhere target) (source : Text) :
    (copyMode source target).Fails host := by
  refine fails_bind_look fun status _ => fails_change fun disk hset => ?_
  obtain ⟨errno, herror⟩ := h.resolve .look
  simp [Disk.setMode, herror] at hset

theorem copyEntry_fails {depth : Nat} {name origin goal : Text} (h : host.disk.IsNowhere goal)
    (hmake : (makeDirectories false goal).Fails host) :
    (copyEntry false depth name origin goal).Fails host := by
  refine fails_bind_ask ?_
  dsimp only
  split
  · refine fails_bind_look fun link _ => (fails_change fun disk hlink => ?_).bind _
    obtain ⟨p, hplace, -⟩ := Disk.makeLink_ok hlink
    exact h.place_ne_ok hplace
  · have hchild : (copyTreeIn false depth origin goal).Fails host := by
      cases depth with
      | zero => exact fails_change fun _ hdisk => nomatch hdisk
      | succ depth => exact fails_bind_look fun names _ => hmake.bind _
    exact hchild.bind _
  · exact (copyFileAs_fails h _ _).discard.bind _

/-- If the permission bits cannot be set, this is an error in the end or one on the way. -/
theorem copyContents_fails {depth : Nat} {names : List Text} (h : host.disk.IsNowhere target)
    (hentries : ∀ name ∈ names, (makeDirectories false (joinTwo target name)).Fails host ∧
      host.disk.IsNowhere (joinTwo target name)) :
    (copyContents false depth source target names).Fails host := by
  refine (Keeps.mapM fun name hmem => ?_).bind_fails fun failures => ?_
  · obtain ⟨hmake, hentry⟩ := hentries name hmem
    exact keeps_collect (copyEntry_fails hentry hmake).keeps _
  · obtain ⟨e, hrun⟩ := (copyMode_fails h source).bind fun _ => pure ([] : List CopyFailure)
    by_cases hnull : e = .embeddedNull
    · refine Fails.bind ⟨e, ?_⟩ _
      rw [collect, runOn_tryCatch_of_error hrun, if_pos hnull]
      rfl
    · refine fails_bind_of_ok (a := [.entry source target e.message]) ?_ ?_
      · rw [collect, runOn_tryCatch_of_error hrun, if_neg hnull]
        rfl
      · dsimp only
        rw [if_pos (by simp)]
        exact fails_throw _

/-- A copy fails if making the directory that it goes to changes nothing. -/
theorem copyTree_fails (hdisk : host.disk.WellFormed)
    (hsame : Same ((makeDirectories false target).runOn host).2.disk.tree host.disk.tree)
    (source : Text) : (copyTree false source target).Fails host := by
  refine fails_bind_look fun names hnames => ?_
  have hkeeps := (makeDirectories_adds false target host).eq_of_same hsame
  rcases hmake : (makeDirectories false target).runOn host with ⟨e | _, host'⟩
  · obtain rfl : host' = host := (congrArg Prod.snd hmake).symm.trans hkeeps
    exact Fails.bind ⟨e, hmake⟩ _
  · obtain rfl : host' = host := (congrArg Prod.snd hmake).symm.trans hkeeps
    obtain ⟨hnowhere, hbelow⟩ := isNowhere_of_makeDirectories_unchanged hmake
    refine fails_bind_of_ok hmake (copyContents_fails hnowhere fun name hmem => ?_)
    have hname := Disk.name_of_listNames hdisk hnames hmem
    exact ⟨makeDirectories_joinTwo_fails hmake hname, hbelow name hname⟩

/-- What a copy has added in making the directory that it goes to remains. -/
theorem not_same_of_copyTree {names : List Text} (hnull : hasNull source = false)
    (hnames : host.disk.listNames source = .ok names)
    (hmake : ¬ Same ((makeDirectories false target).runOn host).2.disk.tree host.disk.tree) :
    ¬ Same ((copyTree false source target).runOn host).2.disk.tree host.disk.tree := by
  have hlook : (look [source] (·.listNames source)).runOn host = (.ok names, host) := by
    simp [runOn_look, outcome, hnull, hnames]
  rw [copyTree, copyTreeIn_succ, runOn_bind_of_ok hlook, runOn_bind]
  have hadds := makeDirectories_adds false target host
  rcases hrun : (makeDirectories false target).runOn host with ⟨e | _, host'⟩
  · rwa [hrun] at hmake
  · rw [hrun] at hmake hadds
    intro hsame
    rcases hadds.new with rfl | ⟨p, hnone, hsome⟩
    · exact hmake (Same.refl _)
    · have htree := grows_respectedByCopies.copyTreeIn false pathLimit
      have hgrows := grows_respectedByCopies.copyContents htree source target names host' p
        (Option.isSome_iff_ne_none.2 hsome)
      rw [hsame p, hnone] at hgrows
      exact nomatch hgrows

end

end Request

end Primitives
