import Primitives.Proofs.Files.Places
import Primitives.Proofs.Files.Runs

/-!
# New directories

A directory is made with its missing parents: if the head of the path is missing, it is made first, and then
the path itself unless it ends with a component that stands for the head. The number of levels is no limit,
since every head is shorter than its path.

A run of this only adds directories where nothing was. If it leaves the tree as it is, it leaves the whole
host as it is.

## Main definitions

* `Host.Adds`: a host with further entries, or the same host.
* `Request.isHeadMissing`, `Request.makeLast`: the two parts of making a directory with its parents.

## Main results

* `Request.runOn_makeDirectories`: the recursion without levels.
* `Request.makeDirectories_adds`: what a run adds.
-/

namespace Primitives

open FileTree PathText

/-! ### Further entries -/

/-- A host that holds what another one does, and more unless it is the same. -/
structure Host.Adds (a b : Host) : Prop where
  keeps : ∀ p x, a.disk.tree.lookup p = some x → b.disk.tree.lookup p = some x
  new : b = a ∨ ∃ p, a.disk.tree.lookup p = none ∧ b.disk.tree.lookup p ≠ none

namespace Host.Adds

theorem refl (host : Host) : host.Adds host :=
  ⟨fun _ _ h => h, .inl rfl⟩

theorem trans (a b c : Host) (hab : a.Adds b) (hbc : b.Adds c) : a.Adds c := by
  refine ⟨fun p x h => hbc.keeps p x (hab.keeps p x h), ?_⟩
  rcases hab.new with rfl | ⟨p, hnone, hsome⟩
  · exact hbc.new
  · refine .inr ⟨p, hnone, ?_⟩
    obtain ⟨x, hx⟩ := Option.ne_none_iff_exists'.1 hsome
    rw [hbc.keeps p x hx]
    exact Option.some_ne_none x

theorem eq_of_same {a b : Host} (h : a.Adds b) (hsame : Same b.disk.tree a.disk.tree) : b = a := by
  rcases h.new with heq | ⟨p, hnone, hsome⟩
  · exact heq
  · exact absurd ((hsame p).trans hnone) hsome

end Host.Adds

/-- A new directory is a further entry. -/
theorem Host.Adds.of_makeDirectory (host : Host) (path : Text) (disk : Disk)
    (h : host.disk.makeDirectory path = .ok disk) : host.Adds { host with disk } := by
  obtain ⟨p, hplace, rfl⟩ := Disk.makeDirectory_ok_iff.1 h
  have hnone := Disk.lookup_of_place hplace
  refine ⟨fun q x hx => ?_, .inr ⟨p, hnone, by simp [lookup_put]⟩⟩
  rw [lookup_put, if_neg]
  · exact hx
  · rintro rfl
    simp [hnone] at hx

namespace Request

/-! ### Heads -/

/-- Whether the head of a path has to be made first. -/
def isHeadMissing (disk : Disk) (path : Text) : Bool :=
  !(splitHead path).1.isEmpty && !(splitHead path).2.isEmpty && !disk.isPresent (splitHead path).1

/-- Makes a directory whose head is there. -/
def makeLast (existing : Bool) (path : Text) : Request Unit :=
  tryCatch (change [path] (·.makeDirectory path)) fun e => do
    let present ← ask (·.leadsToDirectory path)
    if existing && present && e != .embeddedNull then pure () else throw e

/-- Makes a head, where it is no matter if something is there already. -/
def makeHead (make : Request Unit) : Request Unit :=
  tryCatch make fun e => if isExists e then pure () else throw e

/-- Makes a directory after its head was made by a given request. -/
def makeBehind (existing : Bool) (make : Request Unit) (path : Text) : Request Unit := do
  makeHead make
  if (splitHead path).2 = ['.'] then pure () else makeLast existing path

theorem runOn_makeDirectoriesIn (existing : Bool) (depth : Nat) (path : Text) (host : Host) :
    (makeDirectoriesIn existing (depth + 1) path).runOn host =
      if isHeadMissing host.disk path then
        (makeBehind existing (makeDirectoriesIn existing depth (splitHead path).1) path).runOn host
      else (makeLast existing path).runOn host := by
  rw [makeDirectoriesIn]
  simp only [runOn_bind, runOn_ask]
  cases hmissing : isHeadMissing host.disk path with
  | false =>
    unfold isHeadMissing at hmissing
    simp only [hmissing]
    rfl
  | true =>
    unfold isHeadMissing at hmissing
    simp only [hmissing, if_true, Bool.true_and]
    by_cases hdot : (splitHead path).2 = ['.']
    · simp only [makeBehind, hdot]
      rfl
    · simp only [makeBehind, hdot]
      rfl

theorem isHeadMissing_spec {disk : Disk} {path : Text} (h : isHeadMissing disk path) :
    (splitHead path).1 ≠ [] ∧ (splitHead path).2 ≠ [] ∧ ¬ disk.isPresent (splitHead path).1 := by
  simpa [isHeadMissing, and_assoc] using h

theorem isHead_of_isHeadMissing {disk : Disk} {path : Text} (h : isHeadMissing disk path) :
    IsHead (splitHead path).1 (splitHead path).2 path := by
  obtain ⟨-, htail, -⟩ := isHeadMissing_spec h
  rcases hsplit : splitHead path with ⟨head, tail⟩
  rw [hsplit] at htail
  exact splitHead_spec hsplit htail

theorem length_head_lt {disk : Disk} {path : Text} (h : isHeadMissing disk path) :
    (splitHead path).1.length < path.length :=
  (isHead_of_isHeadMissing h).shorter

/-- A path with a missing head is nowhere. -/
theorem isNowhere_of_isHeadMissing {disk : Disk} {path : Text} (h : isHeadMissing disk path) :
    disk.IsNowhere path := by
  obtain ⟨hhead, -, hnowhere⟩ := isHeadMissing_spec h
  obtain ⟨-, hcomponents, hbegins, -⟩ := isHead_of_isHeadMissing h
  exact Disk.isNowhere_of_head hhead hbegins hcomponents (by simp) (mt Disk.isPresent_of_leads hnowhere)

theorem not_isHeadMissing_of_resolve {disk : Disk} {path : Text} {purpose : Purpose} {target : Target}
    (h : disk.resolve purpose path = .ok target) : ¬ isHeadMissing disk path :=
  fun hmissing => (isNowhere_of_isHeadMissing hmissing).resolve_ne_ok h

theorem not_isHeadMissing_of_place {disk : Disk} {path : Text} {p : Location} {entry : Option Entry}
    (h : disk.place path = .ok (p, entry)) : ¬ isHeadMissing disk path :=
  fun hmissing => (isNowhere_of_isHeadMissing hmissing).place_ne_ok h

/-- A number of levels above the length of the path is no limit. -/
theorem runOn_makeDirectoriesIn_congr (existing : Bool) {depth depth' : Nat} {path : Text}
    (hdepth : path.length < depth) (hdepth' : path.length < depth') (host : Host) :
    (makeDirectoriesIn existing depth path).runOn host =
      (makeDirectoriesIn existing depth' path).runOn host := by
  induction depth generalizing depth' path host with
  | zero => omega
  | succ depth ih =>
    cases depth' with
    | zero => omega
    | succ depth' =>
      rw [runOn_makeDirectoriesIn, runOn_makeDirectoriesIn]
      split
      · next hmissing =>
        have hshorter := length_head_lt hmissing
        rw [makeBehind, makeBehind, runOn_bind, runOn_bind, makeHead, makeHead, runOn_tryCatch,
          runOn_tryCatch, ih (by omega) (by omega : _ < depth')]
      · rfl

/-- A directory is made behind its head, if that is missing. -/
theorem runOn_makeDirectories (existing : Bool) (path : Text) (host : Host) :
    (makeDirectories existing path).runOn host =
      if isHeadMissing host.disk path then
        (makeBehind existing (makeDirectories existing (splitHead path).1) path).runOn host
      else (makeLast existing path).runOn host := by
  rw [makeDirectories, runOn_makeDirectoriesIn]
  split
  · next hmissing =>
    have hshorter := length_head_lt hmissing
    rw [makeBehind, makeBehind, runOn_bind, runOn_bind, makeHead, makeHead, runOn_tryCatch,
      runOn_tryCatch, makeDirectories, runOn_makeDirectoriesIn_congr existing hshorter (Nat.lt_succ_self _)]
  · rfl

/-! ### What is added -/

section

variable {R : Host → Host → Prop} (hrefl : ∀ host, R host host)
  (htrans : ∀ a b c, R a b → R b c → R a c)
  (hmake : ∀ (host : Host) path disk, host.disk.makeDirectory path = .ok disk → R host { host with disk })

include hrefl htrans hmake

theorem makeLast_respects (existing : Bool) (path : Text) : (makeLast existing path).Respects R := by
  refine Respects.tryCatch htrans (respects_change hrefl fun host disk => hmake host path disk) fun e => ?_
  refine (respects_ask hrefl _).bind htrans fun present => ?_
  split
  · exact respects_pure hrefl _
  · exact respects_throw hrefl _

omit hmake in
theorem makeHead_respects {make : Request Unit} (h : make.Respects R) : (makeHead make).Respects R := by
  refine h.tryCatch htrans fun e => ?_
  split
  · exact respects_pure hrefl _
  · exact respects_throw hrefl _

theorem makeBehind_respects (existing : Bool) {make : Request Unit} (h : make.Respects R) (path : Text) :
    (makeBehind existing make path).Respects R := by
  refine (makeHead_respects hrefl htrans h).bind htrans fun _ => ?_
  split
  · exact respects_pure hrefl _
  · exact makeLast_respects hrefl htrans hmake existing path

/-- Making a directory with its parents respects what making a directory does. -/
theorem makeDirectories_respects (existing : Bool) (path : Text) :
    (makeDirectories existing path).Respects R := by
  unfold makeDirectories
  generalize path.length + 1 = depth
  induction depth generalizing path with
  | zero => exact respects_change hrefl fun _ _ h => nomatch h
  | succ depth ih =>
    intro host
    rw [runOn_makeDirectoriesIn]
    split
    · exact makeBehind_respects hrefl htrans hmake existing (ih _) path host
    · exact makeLast_respects hrefl htrans hmake existing path host

end

/-- Making a directory with its parents only adds entries. -/
theorem makeDirectories_adds (existing : Bool) (path : Text) :
    (makeDirectories existing path).Respects Host.Adds :=
  makeDirectories_respects Host.Adds.refl Host.Adds.trans Host.Adds.of_makeDirectory existing path

/-! ### Nothing made -/

/-- A directory that is made by itself is new. -/
theorem exists_new_of_makeLast {path : Text} {host host' : Host}
    (h : (makeLast false path).runOn host = (.ok (), host')) :
    ∃ p, host.disk.tree.lookup p = none ∧ host'.disk.tree.lookup p ≠ none := by
  rw [makeLast, runOn_tryCatch, runOn_change] at h
  cases houtcome : outcome [path] (·.makeDirectory path) host.disk with
  | error e => simp [houtcome, runOn_bind] at h
  | ok disk =>
    simp only [houtcome, Prod.mk.injEq, true_and] at h
    subst h
    obtain ⟨p, hplace, rfl⟩ := Disk.makeDirectory_ok_iff.1 (of_outcome_ok houtcome)
    exact ⟨p, Disk.lookup_of_place hplace, by simp [lookup_put]⟩

/-- Making a directory succeeds without making one only behind a head that is there and leads nowhere,
which is a link. -/
theorem of_makeDirectories_unchanged {path : Text} {host : Host}
    (h : (makeDirectories false path).runOn host = (.ok (), host)) :
    isHeadMissing host.disk path ∧ (splitHead path).2 = ['.'] := by
  have hlast : ∀ {host₁ : Host}, host.Adds host₁ → (makeLast false path).runOn host₁ ≠ (.ok (), host) := by
    intro host₁ hadds hmake
    obtain ⟨p, hnone, hsome⟩ := exists_new_of_makeLast hmake
    obtain ⟨x, hx⟩ := Option.ne_none_iff_exists'.1 hsome
    exact nomatch hnone.symm.trans (hadds.keeps p x hx)
  rw [runOn_makeDirectories] at h
  split at h
  · next hmissing =>
    refine ⟨hmissing, ?_⟩
    by_contra hdot
    have hadds := makeHead_respects Host.Adds.refl Host.Adds.trans
      (makeDirectories_adds false (splitHead path).1) host
    rw [makeBehind, runOn_bind] at h
    rcases hhead : (makeHead (makeDirectories false (splitHead path).1)).runOn host with ⟨_ | _, host₁⟩
    · simp [hhead] at h
    · rw [hhead] at hadds
      simp only [hhead, if_neg hdot] at h
      exact hlast hadds h
  · exact absurd h (hlast (Host.Adds.refl host))

theorem makeLast_fails {path : Text} {host : Host}
    (h : ∀ disk, host.disk.makeDirectory path ≠ .ok disk) : (makeLast false path).Fails host :=
  (fails_change h).tryCatch fun e => fails_bind_ask (fails_throw e)

section

variable {path name : Text} {host : Host} (h : (makeDirectories false path).runOn host = (.ok (), host))

include h

/-- Where a directory seemed to be made, there is none, and nothing below it. -/
theorem isNowhere_of_makeDirectories_unchanged :
    host.disk.IsNowhere path ∧ ∀ name, IsName name → host.disk.IsNowhere (joinTwo path name) := by
  obtain ⟨hmissing, hdot⟩ := of_makeDirectories_unchanged h
  obtain ⟨hhead, htail, hnowhere⟩ := isHeadMissing_spec hmissing
  rcases hsplit : splitHead path with ⟨head, tail⟩
  rw [hsplit] at hhead htail hnowhere hdot
  obtain ⟨-, hcomponents, hbegins, -⟩ := splitHead_spec hsplit htail
  have hleads : ¬ host.disk.leadsToDirectory head := mt Disk.isPresent_of_leads hnowhere
  refine ⟨Disk.isNowhere_of_head hhead hbegins hcomponents (by simp) hleads, fun name hname => ?_⟩
  have hjoin : SplitPath.splitComponents (joinTwo path name) =
      SplitPath.splitComponents head ++ [tail, name] := by
    rw [splitComponents_joinTwo hname.1 hname.2.1, hcomponents, List.append_assoc]
    rfl
  exact Disk.isNowhere_of_head hhead (hbegins.trans (prefix_joinTwo path hname.2.1)) hjoin (by simp)
    hleads

/-- Where a directory seemed to be made, none is made below it. -/
theorem makeDirectories_joinTwo_fails (hname : IsName name) :
    (makeDirectories false (joinTwo path name)).Fails host := by
  obtain ⟨hmissing, hdot⟩ := of_makeDirectories_unchanged h
  have htail := (isHeadMissing_spec hmissing).2.1
  have hsame := splitHead_withoutTrailingSlashes htail
  have hcomponents : SplitPath.splitComponents path ≠ [] := by
    rw [(splitHead_spec rfl htail).components]
    simp
  have hsplit := splitHead_joinTwo hcomponents hname.1 hname.2.1
  have hlast : (makeLast false (joinTwo path name)).Fails host := by
    refine makeLast_fails fun disk hmake => ?_
    obtain ⟨p, hplace, -⟩ := Disk.makeDirectory_ok_iff.1 hmake
    exact ((isNowhere_of_makeDirectories_unchanged h).2 name hname).place_ne_ok hplace
  -- the head is the same path up to slashes at its end
  have hhead : (makeDirectories false (withoutTrailingSlashes path)).runOn host = (.ok (), host) := by
    rw [runOn_makeDirectories, if_pos hmissing, makeBehind, if_pos hdot] at h
    have hmissing' : isHeadMissing host.disk (withoutTrailingSlashes path) := by
      rwa [isHeadMissing, hsame]
    rw [runOn_makeDirectories, if_pos hmissing', makeBehind, hsame, if_pos hdot]
    exact h
  unfold Fails
  rw [runOn_makeDirectories]
  split
  · have hmade : (makeHead (makeDirectories false (withoutTrailingSlashes path))).runOn host =
        (.ok (), host) := by
      rw [makeHead, runOn_tryCatch, hhead]
    rw [hsplit, makeBehind, runOn_bind_of_ok hmade, if_neg (by rw [hsplit]; exact hname.2.2.1)]
    exact hlast
  · exact hlast

end

end Request

end Primitives
