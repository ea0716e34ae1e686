import Primitives.Proofs.Files.WholeFiles

/-!
# Copies that succeed

A copy of a directory goes on behind an entry that it cannot copy and reports it in the end. So it succeeds
exactly if it lists the source, makes the target, copies every entry, and sets the permission bits; an
entry that fails leaves something to report. Here the success of each part of a copy is told by what it
reads and what it puts into the tree, so that no later proof opens a request of a copy.

## Main definitions

* `Host.put`: a host with an entry put at a location.
* `Request.Throws`: the errors that a request can end with.
* `Request.Chain`: requests one after another that all succeed and report nothing.
* `Disk.copyPath`: the path of the copy of a file.

## Main results

* `Request.copyTreeIn_ok_iff`: when a copy of a directory succeeds.
* `Request.copyFileAs_ok_iff`: when a copy of a file succeeds.
* `Request.copyEntry_ok_iff`: when an entry of a directory is copied.
-/

namespace Primitives

open FileTree PathText

/-! ### Entries that are put -/

/-- A host with an entry put at a location. -/
def Host.put (host : Host) (p : Location) (e : Entry) : Host :=
  { host with disk := { host.disk with tree := host.disk.tree.put p e } }

@[simp] theorem Host.tree_put (host : Host) (p : Location) (e : Entry) :
    (host.put p e).disk.tree = host.disk.tree.put p e :=
  rfl

namespace Request

variable {α β : Type} {host host' : Host}

/-! ### Success of compositions -/

theorem runOn_bind_ok_iff {a : Request α} {f : α → Request β} {y : β} :
    (a >>= f).runOn host = (.ok y, host') ↔
      ∃ x mid, a.runOn host = (.ok x, mid) ∧ (f x).runOn mid = (.ok y, host') := by
  rw [runOn_bind]
  rcases a.runOn host with ⟨e | x, mid⟩
  · simp
  · constructor
    · exact fun h => ⟨x, mid, rfl, h⟩
    · rintro ⟨x', mid', heq, h⟩
      cases heq
      exact h

/-- A request that is followed by a value. -/
theorem runOn_bind_pure_ok_iff {a : Request Unit} {y : β} :
    (a >>= fun _ => pure y).runOn host = (.ok y, host') ↔ a.runOn host = (.ok (), host') := by
  rw [runOn_bind_ok_iff]
  constructor
  · rintro ⟨_, _, hrun, ⟨⟩⟩
    exact hrun
  · exact fun hrun => ⟨(), host', hrun, rfl⟩

theorem outcome_ok_iff {paths : List Text} {f : Disk → Except Errno α} {disk : Disk} {a : α} :
    outcome paths f disk = .ok a ↔ (∀ path ∈ paths, hasNull path = false) ∧ f disk = .ok a := by
  unfold outcome
  by_cases hnull : paths.any hasNull
  · have hsome : ¬ ∀ path ∈ paths, hasNull path = false := by simpa using hnull
    simp [hnull, hsome]
  · have hnone : ∀ path ∈ paths, hasNull path = false := by simpa using hnull
    rw [if_neg hnull, and_iff_right hnone]
    cases f disk <;> simp

theorem runOn_look_ok_iff {paths : List Text} {f : Disk → Except Errno α} {a : α} :
    (look paths f).runOn host = (.ok a, host') ↔
      (∀ path ∈ paths, hasNull path = false) ∧ f host.disk = .ok a ∧ host' = host := by
  rw [runOn_look, Prod.mk.injEq, outcome_ok_iff, and_assoc]
  exact and_congr_right fun _ => and_congr_right fun _ => eq_comm

theorem runOn_change_ok_iff {paths : List Text} {f : Disk → Except Errno Disk} :
    (change paths f).runOn host = (.ok (), host') ↔
      (∀ path ∈ paths, hasNull path = false) ∧ ∃ disk, f host.disk = .ok disk ∧
        host' = { host with disk } := by
  rw [runOn_change]
  cases houtcome : outcome paths f host.disk with
  | error e =>
    simp only [Prod.mk.injEq, reduceCtorEq, false_and, false_iff, not_and, not_exists]
    intro hnull disk hdisk
    exact nomatch houtcome.symm.trans (outcome_ok_iff.2 ⟨hnull, hdisk⟩)
  | ok disk =>
    obtain ⟨hnull, hdisk⟩ := outcome_ok_iff.1 houtcome
    rw [and_iff_right hnull]
    constructor
    · rintro ⟨⟩
      exact ⟨disk, hdisk, rfl⟩
    · rintro ⟨disk', hdisk', rfl⟩
      rw [Except.ok.inj (hdisk.symm.trans hdisk')]

/-- A request of which every error is replaced by another one succeeds by itself. -/
theorem runOn_tryCatch_ok_iff {a : Request α} {handle : HostError → Request α} {x : α}
    (h : ∀ e host, (handle e).runOn host ≠ (.ok x, host')) :
    (tryCatch a handle).runOn host = (.ok x, host') ↔ a.runOn host = (.ok x, host') := by
  rw [runOn_tryCatch]
  rcases a.runOn host with ⟨e | y, mid⟩
  · simp [h e mid]
  · rfl

theorem runOn_discard (a : Request α) (host : Host) :
    (discard a).runOn host = ((a.runOn host).1.map fun _ => (), (a.runOn host).2) := by
  change ((fun _ => ()) <$> a).runOn host = _
  rw [map_eq_pure_bind, runOn_bind]
  rcases a.runOn host with ⟨_ | x, mid⟩ <;> rfl

theorem runOn_discard_ok_iff {a : Request α} :
    (discard a).runOn host = (.ok (), host') ↔ ∃ x, a.runOn host = (.ok x, host') := by
  rw [runOn_discard]
  rcases a.runOn host with ⟨_ | x, mid⟩ <;> simp

/-! ### Errors -/

/-- Every error that a request ends with satisfies a condition. -/
def Throws (P : HostError → Prop) (request : Request α) : Prop :=
  ∀ host e host', request.runOn host = (.error e, host') → P e

section

variable {P : HostError → Prop} {request : Request α} {next : α → Request β}

theorem throws_pure (a : α) : (pure a : Request α).Throws P :=
  fun _ _ _ h => nomatch congrArg Prod.fst h

theorem throws_throw {e : HostError} (h : P e) : (throw e : Request α).Throws P := by
  intro host e' host' hrun
  cases hrun
  exact h

theorem throws_ask (f : Disk → α) : (ask f).Throws P :=
  fun _ _ _ h => nomatch congrArg Prod.fst h

theorem throws_look {paths : List Text} {f : Disk → Except Errno α} (hnull : P .embeddedNull)
    (hcall : ∀ errno, P (.call errno paths)) : (look paths f).Throws P := by
  intro host e host' hrun
  rw [runOn_look] at hrun
  rcases of_outcome_error (congrArg Prod.fst hrun) with rfl | ⟨errno, -, rfl⟩
  · exact hnull
  · exact hcall errno

theorem throws_change {paths : List Text} {f : Disk → Except Errno Disk} (hnull : P .embeddedNull)
    (hcall : ∀ errno, P (.call errno paths)) : (change paths f).Throws P := by
  intro host e host' hrun
  rw [runOn_change] at hrun
  cases houtcome : outcome paths f host.disk with
  | ok disk => simp [houtcome] at hrun
  | error e' =>
    obtain rfl : e' = e := by simpa [houtcome] using congrArg Prod.fst hrun
    rcases of_outcome_error houtcome with rfl | ⟨errno, -, rfl⟩
    · exact hnull
    · exact hcall errno

theorem Throws.bind (h : request.Throws P) (hnext : ∀ a, (next a).Throws P) :
    (request >>= next).Throws P := by
  intro host e host' hrun
  rw [runOn_bind] at hrun
  rcases hfirst : request.runOn host with ⟨e' | a, mid⟩
  · rw [hfirst] at hrun
    cases hrun
    exact h host e host' hfirst
  · rw [hfirst] at hrun
    exact hnext a mid e host' hrun

theorem Throws.discard (h : request.Throws P) : (discard request).Throws P := by
  change ((fun _ => ()) <$> request).Throws P
  rw [map_eq_pure_bind]
  exact h.bind fun _ => throws_pure ()

theorem Throws.mapM {f : β → Request α} {l : List β} (h : ∀ b ∈ l, (f b).Throws P) :
    (l.mapM f).Throws P := by
  induction l with
  | nil => exact throws_pure []
  | cons b l ih =>
    rw [List.mapM_cons]
    refine (h b List.mem_cons_self).bind fun a => ?_
    exact (ih fun c hc => h c (List.mem_cons_of_mem b hc)).bind fun as => throws_pure _

/-- An error is handled by a request that may end with an error of its own. -/
theorem Throws.tryCatch {Q : HostError → Prop} {handle : HostError → Request α} (h : request.Throws Q)
    (hhandle : ∀ e, Q e → (handle e).Throws P) : (tryCatch request handle).Throws P := by
  intro host e host' hrun
  rw [runOn_tryCatch] at hrun
  rcases hfirst : request.runOn host with ⟨e' | a, mid⟩
  · rw [hfirst] at hrun
    exact hhandle e' (h host e' mid hfirst) mid e host' hrun
  · rw [hfirst] at hrun
    cases hrun

end

/-! ### Nothing to report -/

/-- An error that adds a failure to those of the tree that it arises in. -/
def IsReported (e : HostError) : Prop :=
  ∀ source target, e.failuresAt source target ≠ []

theorem isReported_call (errno : Errno) (paths : List Text) : IsReported (.call errno paths) :=
  fun _ _ h => nomatch h

theorem isReported_embeddedNull : IsReported .embeddedNull :=
  fun _ _ h => nomatch h

theorem isReported_sameFile (a b : Text) : IsReported (.sameFile a b) := by
  intro source target hnil
  have hmessage : (a ++ " and " ++ b ++ " are the same file" : Text) = [] := List.map_eq_nil_iff.1 hnil
  exact absurd (List.append_eq_nil_iff.1 hmessage).2 (by decide)

section

variable {shown source target path : Text}

theorem reported_change {paths : List Text} (f : Disk → Except Errno Disk) :
    (change paths f).Throws IsReported :=
  throws_change isReported_embeddedNull fun errno => isReported_call errno paths

theorem reported_look {paths : List Text} (f : Disk → Except Errno α) :
    (look paths f).Throws IsReported :=
  throws_look isReported_embeddedNull fun errno => isReported_call errno paths

theorem reported_makeLast (existing : Bool) (path : Text) : (makeLast existing path).Throws IsReported := by
  refine (reported_change _).tryCatch fun e he => (throws_ask _).bind fun present => ?_
  split
  · exact throws_pure ()
  · exact throws_throw he

theorem reported_makeDirectories (existing : Bool) (path : Text) :
    (makeDirectories existing path).Throws IsReported := by
  unfold makeDirectories
  generalize path.length + 1 = depth
  induction depth generalizing path with
  | zero => exact reported_change _
  | succ depth ih =>
    have hbehind : (makeBehind existing (makeDirectoriesIn existing depth (splitHead path).1) path).Throws
        IsReported := by
      refine ((ih _).tryCatch fun e he => ?_).bind fun _ => ?_
      · split
        · exact throws_pure ()
        · exact throws_throw he
      · split
        · exact throws_pure ()
        · exact reported_makeLast existing path
    intro host e host' hrun
    rw [runOn_makeDirectoriesIn] at hrun
    split at hrun
    · exact hbehind host e host' hrun
    · exact reported_makeLast existing path host e host' hrun

theorem reported_copyMode (source target : Text) : (copyMode source target).Throws IsReported :=
  (reported_look _).bind fun _ => reported_change _

theorem reported_copyBytes (shown source target : Text) :
    (copyBytes shown source target).Throws IsReported := by
  have hsame : (isSameTarget source target).Throws IsReported := by
    intro host e host' hrun
    rw [runOn_isSameTarget] at hrun
    obtain rfl : HostError.embeddedNull = e := by
      split at hrun
      · simpa using congrArg Prod.fst hrun
      · split at hrun
        · simp at hrun
        · split at hrun
          · simpa using congrArg Prod.fst hrun
          · simp at hrun
    exact isReported_embeddedNull
  refine hsame.bind fun same => ?_
  cases same with
  | true => exact throws_throw (isReported_sameFile _ _)
  | false =>
    by_cases hnull : hasNull source || hasNull target
    · simp only [hnull]
      exact throws_throw isReported_embeddedNull
    · simp only [hnull]
      refine (reported_look _).bind fun bytes => (reported_change _).tryCatch fun e he => ?_
      refine (throws_ask _).bind fun present => ?_
      split
      · exact throws_throw fun _ _ h => nomatch h
      · exact throws_throw he

theorem reported_copyFileAs (shown source target : Text) :
    (copyFileAs shown source target).Throws IsReported := by
  have htarget : (copyTarget source target).Throws IsReported := by
    refine (throws_ask _).bind fun inside => ?_
    split <;> exact throws_pure _
  refine htarget.bind fun target => (reported_copyBytes shown source target).bind fun _ => ?_
  exact (reported_copyMode source target).bind fun _ => throws_pure _

theorem reported_collect {request : Request (List CopyFailure)}
    (failures : HostError → List CopyFailure) : (collect request failures).Throws IsReported := by
  refine Throws.tryCatch (Q := fun _ => True) (fun _ _ _ _ => trivial) fun e _ => ?_
  split
  · next hnull => exact throws_throw (hnull ▸ isReported_embeddedNull)
  · exact throws_pure _

/-- Whatever a copy of a directory ends with, there is something to report. -/
theorem reported_copyTreeIn (existing : Bool) (depth : Nat) (source target : Text) :
    (copyTreeIn existing depth source target).Throws IsReported := by
  cases depth with
  | zero => exact reported_change _
  | succ depth =>
    rw [copyTreeIn_succ]
    refine (reported_look _).bind fun names => (reported_makeDirectories existing target).bind fun _ => ?_
    refine (Throws.mapM fun name _ => reported_collect _).bind fun failures => ?_
    refine (reported_collect _).bind fun last => ?_
    dsimp only
    split
    · next hne =>
      refine throws_throw fun _ _ hnil => ?_
      have hall : failures.flatten ++ last = [] := hnil
      simp [hall] at hne
    · exact throws_pure ()

theorem reported_copyEntry (existing : Bool) (depth : Nat) (name origin goal : Text) :
    (copyEntry existing depth name origin goal).Throws IsReported := by
  refine (throws_ask _).bind fun status => ?_
  dsimp only
  split
  · refine (reported_look _).bind fun link => (reported_change _).bind fun _ => throws_pure []
  · exact (reported_copyTreeIn existing depth origin goal).bind fun _ => throws_pure []
  · exact (reported_copyFileAs _ origin goal).discard.bind fun _ => throws_pure []

end

/-- Nothing is collected exactly if nothing fails, where every error would be reported. -/
theorem collect_nil_iff {request : Request (List CopyFailure)} {failures : HostError → List CopyFailure}
    (h : request.Throws fun e => failures e ≠ []) :
    (collect request failures).runOn host = (.ok [], host') ↔ request.runOn host = (.ok [], host') := by
  rw [collect, runOn_tryCatch]
  rcases hrun : request.runOn host with ⟨e | x, mid⟩
  · have hne := h host e mid hrun
    by_cases hnull : e = .embeddedNull <;> simp [hnull, hne]
  · rfl

/-- Requests for the members of a list, one after another, that all succeed and give nothing. -/
inductive Chain (f : β → Request (List α)) : List β → Host → Host → Prop
  | nil (host : Host) : Chain f [] host host
  | cons {b : β} {l : List β} {host mid host' : Host} (head : (f b).runOn host = (.ok [], mid))
      (tail : Chain f l mid host') : Chain f (b :: l) host host'

theorem Chain.congr {f g : β → Request (List α)} {l : List β}
    (h : ∀ b host host', (f b).runOn host = (.ok [], host') ↔ (g b).runOn host = (.ok [], host')) :
    Chain f l host host' ↔ Chain g l host host' := by
  have himp : ∀ {f g : β → Request (List α)},
      (∀ b host host', (f b).runOn host = (.ok [], host') → (g b).runOn host = (.ok [], host')) →
        Chain f l host host' → Chain g l host host' := by
    intro f g h hchain
    induction hchain with
    | nil host => exact .nil host
    | cons head _ ih => exact .cons (h _ _ _ head) ih
  exact ⟨himp fun b host host' => (h b host host').1, himp fun b host host' => (h b host host').2⟩

section

variable {R : Host → Host → Prop} {f : β → Request (List α)} {l : List β}
  (hrefl : ∀ host, R host host) (htrans : ∀ a b c, R a b → R b c → R a c) (h : ∀ b, (f b).Respects R)

include hrefl htrans h

/-- A chain respects what its requests respect. -/
theorem Chain.respects (hchain : Chain f l host host') : R host host' := by
  induction hchain with
  | nil host => exact hrefl host
  | cons head _ ih => exact htrans _ _ _ ((h _).of_runOn head) ih

/-- The request for a member, with what the ones in front and behind it respect. -/
theorem Chain.exists_of_mem {b : β} (hchain : Chain f l host host') (hb : b ∈ l) :
    ∃ mid mid', R host mid ∧ (f b).runOn mid = (.ok [], mid') ∧ R mid' host' := by
  induction hchain with
  | nil host => cases hb
  | @cons c l host mid host' head tail ih =>
    rcases List.mem_cons.1 hb with rfl | hb
    · exact ⟨host, mid, hrefl host, head, tail.respects hrefl htrans h⟩
    · obtain ⟨x, y, hx, hrun, hy⟩ := ih hb
      exact ⟨x, y, htrans _ _ _ ((h c).of_runOn head) hx, hrun, hy⟩

end

theorem runOn_mapM_nil_iff {f : β → Request (List α)} {l : List β} :
    (∃ ls, (l.mapM f).runOn host = (.ok ls, host') ∧ ls.flatten = []) ↔ Chain f l host host' := by
  induction l generalizing host with
  | nil =>
    constructor
    · rintro ⟨ls, hrun, -⟩
      cases hrun
      exact .nil _
    · rintro ⟨⟩
      exact ⟨[], rfl, rfl⟩
  | cons b l ih =>
    simp only [List.mapM_cons, runOn_bind_ok_iff, runOn_pure]
    constructor
    · rintro ⟨ls, ⟨first, mid, hhead, rest, last, htail, heq⟩, hflat⟩
      cases heq
      obtain ⟨rfl, hrest⟩ := List.append_eq_nil_iff.1 hflat
      exact .cons hhead (ih.1 ⟨rest, htail, hrest⟩)
    · rintro (_ | ⟨hhead, htail⟩)
      obtain ⟨rest, hrun, hflat⟩ := ih.2 htail
      exact ⟨[] :: rest, ⟨[], _, hhead, rest, _, hrun, rfl⟩, hflat⟩

/-! ### Parts of a copy that succeed -/

variable {source target : Text} {existing : Bool} {depth : Nat}

theorem copyMode_ok_iff : (copyMode source target).runOn host = (.ok (), host') ↔
    hasNull source = false ∧ hasNull target = false ∧ ∃ status disk,
      host.disk.status source true = .ok status ∧ host.disk.setMode target status.mode = .ok disk ∧
        host' = { host with disk } := by
  unfold copyMode
  simp only [runOn_bind_ok_iff, runOn_look_ok_iff, runOn_change_ok_iff, List.forall_mem_singleton]
  constructor
  · rintro ⟨status, _, ⟨hsource, hstatus, rfl⟩, htarget, disk, hset, rfl⟩
    exact ⟨hsource, htarget, status, disk, hstatus, hset, rfl⟩
  · rintro ⟨hsource, htarget, status, disk, hstatus, hset, rfl⟩
    exact ⟨status, host, ⟨hsource, hstatus, rfl⟩, htarget, disk, hset, rfl⟩

/-- The entries of a directory are copied and then its permission bits exactly if nothing fails. -/
theorem copyContents_ok_iff {names : List Text} :
    (copyContents existing depth source target names).runOn host = (.ok (), host') ↔
      ∃ mid, Chain (fun name => copyEntry existing depth name (joinTwo source name) (joinTwo target name))
        names host mid ∧ (copyMode source target).runOn mid = (.ok (), host') := by
  have hentries : ∀ {mid}, Chain (fun name =>
      collect (copyEntry existing depth name (joinTwo source name) (joinTwo target name))
        (·.failuresAt (joinTwo source name) (joinTwo target name))) names host mid ↔
      Chain (fun name => copyEntry existing depth name (joinTwo source name) (joinTwo target name))
        names host mid :=
    Chain.congr fun name host host' => collect_nil_iff fun host e host' hrun =>
      reported_copyEntry _ _ _ _ _ host e host' hrun _ _
  have hmode : ∀ {mid}, (collect (do copyMode source target; return []) fun e =>
      [.entry source target e.message]).runOn mid = (.ok [], host') ↔
        (copyMode source target).runOn mid = (.ok (), host') := by
    intro mid
    rw [collect_nil_iff fun _ _ _ _ => List.cons_ne_nil _ _, runOn_bind_pure_ok_iff]
  have hend : ∀ {all : List CopyFailure} {mid},
      (if !all.isEmpty then throw (.incompleteCopy all) else pure () : Request Unit).runOn mid =
        (.ok (), host') ↔ all = [] ∧ mid = host' := by
    intro all mid
    cases all <;> simp
  unfold copyContents
  simp only [runOn_bind_ok_iff, hend, List.append_eq_nil_iff, ← hentries, ← runOn_mapM_nil_iff, ← hmode]
  constructor
  · rintro ⟨ls, mid, hrun, last, _, hlast, ⟨hflat, rfl⟩, rfl⟩
    exact ⟨mid, ⟨ls, hrun, hflat⟩, hlast⟩
  · rintro ⟨mid, ⟨ls, hrun, hflat⟩, hlast⟩
    exact ⟨ls, mid, hrun, [], host', hlast, ⟨hflat, rfl⟩, rfl⟩

theorem copyTreeIn_ok_iff : (copyTreeIn existing (depth + 1) source target).runOn host = (.ok (), host') ↔
    hasNull source = false ∧ ∃ names host₁ host₂, host.disk.listNames source = .ok names ∧
      (makeDirectories existing target).runOn host = (.ok (), host₁) ∧
      Chain (fun name => copyEntry existing depth name (joinTwo source name) (joinTwo target name))
        names host₁ host₂ ∧ (copyMode source target).runOn host₂ = (.ok (), host') := by
  rw [copyTreeIn_succ]
  simp only [runOn_bind_ok_iff, runOn_look_ok_iff, copyContents_ok_iff, List.forall_mem_singleton]
  constructor
  · rintro ⟨names, _, ⟨hnull, hnames, rfl⟩, _, host₁, hmake, host₂, hentries, hmode⟩
    exact ⟨hnull, names, host₁, host₂, hnames, hmake, hentries, hmode⟩
  · rintro ⟨hnull, names, host₁, host₂, hnames, hmake, hentries, hmode⟩
    exact ⟨names, host, ⟨hnull, hnames, rfl⟩, (), host₁, hmake, host₂, hentries, hmode⟩

end Request

/-! ### Files that are copied -/

/-- The path of the copy of a file: inside the target if that leads to a directory. -/
def Disk.copyPath (disk : Disk) (source target : Text) : Text :=
  if disk.leadsToDirectory target then joinTwo target (baseName source) else target

/-- A file at a location that can be copied by its path to another location, which a second path opens. -/
structure Disk.Copies (disk : Disk) (source goal : Text) (s : Location) (mode : Nat) (content : Bytes)
    (p : Location) : Prop where
  source : disk.resolve .look source = .ok (.file s mode content)
  goal : ∃ target, disk.resolve .write goal = .ok target ∧ target.opened? = some p
  apart : p ≠ s

/-- A file is written at the location that its path opens. -/
theorem Disk.writeBytes_of_opened {disk : Disk} {path : Text} {p : Location} {target : Target}
    (hopens : disk.resolve .write path = .ok target) (hopened : target.opened? = some p) :
    ∃ mode, ∀ bytes, disk.writeBytes path bytes false =
      .ok { disk with tree := disk.tree.put p (.file mode bytes) } :=
  ⟨target.mode, fun _ => writeBytes_ok_iff.2
    ⟨target, p, hopens, hopened, by rw [Target.held_false, List.nil_append]⟩⟩

namespace Request

variable {host host' : Host} {shown source target goal real : Text} {s p : Location} {mode : Nat} {content : Bytes}

theorem runOn_copyTarget (source target : Text) (host : Host) :
    (copyTarget source target).runOn host = (.ok (host.disk.copyPath source target), host) := by
  unfold copyTarget Disk.copyPath
  rw [runOn_bind, runOn_ask]
  dsimp only
  split <;> rfl

/-- A file is the same as what a path opens if it is at the location that is opened. -/
theorem runOn_isSameTarget_of_opened (hsource : hasNull source = false) (hgoal : hasNull goal = false)
    (hfile : host.disk.resolve .look source = .ok (.file s mode content)) {target : Target}
    (hopens : host.disk.resolve .write goal = .ok target) (hopened : target.opened? = some p) :
    (isSameTarget source goal).runOn host = (.ok (s == p), host) := by
  have hlook := Disk.resolve_look_of_write hopens
  have hlookup := Disk.lookup_of_resolve_file hfile
  have hstatus : host.disk.status source true = .ok (.file mode content.length) := by
    simp [Disk.status, hfile]
  rw [runOn_isSameTarget, if_neg (by simp [hsource]), hstatus]
  dsimp only
  rw [if_neg (by simp [hgoal])]
  rcases Disk.lookup_of_opened hlook hopened with ⟨rfl, hnone⟩ | ⟨mode', content', rfl, -⟩
  · have hne : (s == p) = false := by
      rw [beq_eq_false_iff_ne]
      rintro rfl
      cases hlookup.symm.trans hnone
    simp [Disk.sameTarget, hfile, hlook, hne, Except.toOption]
  · simp [Disk.sameTarget, hfile, hlook, Except.toOption]

/-- Writes the bytes of a copy, where an error that tells of a missing directory has its own wording. -/
def writeCopy (goal : Text) (bytes : Bytes) : Request Unit :=
  tryCatch (change [goal] (·.writeBytes goal bytes false)) fun e => do
    let present ← ask (·.isPresent goal)
    if e = .call .isDirectory [goal] && !present then throw (.missingDirectory goal) else throw e

theorem writeCopy_ok_iff {bytes : Bytes} : (writeCopy goal bytes).runOn host = (.ok (), host') ↔
    hasNull goal = false ∧ ∃ disk, host.disk.writeBytes goal bytes false = .ok disk ∧
      host' = { host with disk } := by
  unfold writeCopy
  rw [runOn_tryCatch_ok_iff, runOn_change_ok_iff, List.forall_mem_singleton]
  intro e mid
  rw [runOn_bind, runOn_ask]
  dsimp only
  split <;> simp

/-- The bytes of a file are copied if the goal is not the same file. -/
theorem copyBytes_ok_iff : (copyBytes shown source goal).runOn host = (.ok (), host') ↔
    (isSameTarget source goal).runOn host = (.ok false, host) ∧ hasNull source = false ∧
      ∃ bytes, host.disk.readBytes source = .ok bytes ∧
        (writeCopy goal bytes).runOn host = (.ok (), host') := by
  have hkeeps := keeps_isSameTarget source goal host
  unfold copyBytes
  rw [runOn_bind]
  rcases hsame : (isSameTarget source goal).runOn host with ⟨e | same, mid⟩
  · simp
  · obtain rfl : mid = host := by rwa [Keeps, hsame] at hkeeps
    cases same with
    | true => simp
    | false =>
      by_cases hnull : hasNull source || hasNull goal
      · simp only [hnull]
        constructor
        · intro h
          cases congrArg Prod.fst h
        · rintro ⟨-, hsource, bytes, -, hwrite⟩
          simp [hsource, (writeCopy_ok_iff.1 hwrite).1] at hnull
      · obtain ⟨hsource, hgoal⟩ : hasNull source = false ∧ hasNull goal = false := by simpa using hnull
        simp only [hsource, hgoal, Bool.or_false, Bool.false_eq_true, if_false, true_and]
        rw [runOn_bind_ok_iff]
        simp only [runOn_look_ok_iff, List.forall_mem_singleton]
        constructor
        · rintro ⟨bytes, _, ⟨-, hread, rfl⟩, hwrite⟩
          exact ⟨bytes, hread, hwrite⟩
        · rintro ⟨bytes, hread, hwrite⟩
          exact ⟨bytes, mid, ⟨hsource, hread, rfl⟩, hwrite⟩

/-- The bytes of a file are put at the location that the goal opens. -/
theorem copies_of_copyBytes (h : (copyBytes shown source goal).runOn host = (.ok (), host')) :
    hasNull source = false ∧ hasNull goal = false ∧ ∃ s mode content p mode',
      host.disk.Copies source goal s mode content p ∧ host' = host.put p (.file mode' content) := by
  obtain ⟨hsame, hsource, bytes, hread, hcopy⟩ := copyBytes_ok_iff.1 h
  obtain ⟨hgoal, disk, hwrite, rfl⟩ := writeCopy_ok_iff.1 hcopy
  obtain ⟨found, hfile, hread⟩ := Outcome.bind_eq_ok_iff.1 hread
  obtain ⟨s, mode, rfl⟩ : ∃ s mode, found = .file s mode bytes := by
    cases found with
    | file s mode content => exact ⟨s, mode, by rw [Except.ok.inj hread]⟩
    | _ => simp at hread
  obtain ⟨target, p, hopens, hopened, -⟩ := Disk.writeBytes_ok_iff.1 hwrite
  obtain ⟨mode', hwrite'⟩ := Disk.writeBytes_of_opened hopens hopened
  rw [hwrite'] at hwrite
  rw [runOn_isSameTarget_of_opened hsource hgoal hfile hopens hopened] at hsame
  have hapart : s ≠ p := by simpa using hsame
  refine ⟨hsource, hgoal, s, mode, bytes, p, mode', ⟨hfile, ⟨target, hopens, hopened⟩, hapart.symm⟩, ?_⟩
  rw [← Except.ok.inj hwrite]
  rfl

theorem runOn_copyBytes (hsource : hasNull source = false) (hgoal : hasNull goal = false)
    (h : host.disk.Copies source goal s mode content p) (shown : Text) : ∃ mode',
      (copyBytes shown source goal).runOn host = (.ok (), host.put p (.file mode' content)) := by
  obtain ⟨target, hopens, hopened⟩ := h.goal
  obtain ⟨mode', hwrite⟩ := Disk.writeBytes_of_opened hopens hopened
  have hsame := runOn_isSameTarget_of_opened hsource hgoal h.source hopens hopened
  rw [beq_eq_false_iff_ne.2 h.apart.symm] at hsame
  exact ⟨mode', copyBytes_ok_iff.2 ⟨hsame, hsource, content, by simp [Disk.readBytes, h.source],
    writeCopy_ok_iff.2 ⟨hgoal, _, hwrite content, rfl⟩⟩⟩

/-- The permission bits of a file follow its bytes. -/
theorem runOn_copyMode_of_copies (hsource : hasNull source = false) (hgoal : hasNull goal = false)
    (h : host.disk.Copies source goal s mode content p) (mode' : Nat) :
    (copyMode source goal).runOn (host.put p (.file mode' content)) =
      (.ok (), host.put p (.file mode content)) := by
  obtain ⟨target, hopens, hopened⟩ := h.goal
  have hwithin : host.disk.Within (host.put p (.file mode' content)).disk := .put_of_opened hopens hopened
  have hfile : (host.put p (.file mode' content)).disk.resolve .look source =
      .ok (.file s mode content) := by
    refine hwithin.resolve h.source (.opened rfl ?_)
    rw [Host.tree_put, lookup_put, if_neg h.apart.symm]
    exact Disk.lookup_of_resolve_file h.source
  have hcopy : (host.put p (.file mode' content)).disk.resolve .look goal =
      .ok (.file p mode' content) :=
    hwithin.resolve (Disk.resolve_look_of_write hopens) (.opened hopened (by simp [lookup_put]))
  have hset : (host.put p (.file mode' content)).disk.setMode goal mode =
      .ok (host.put p (.file mode content)).disk := by
    rw [Disk.setMode, hcopy]
    simp [Host.put, put_put]
  exact copyMode_ok_iff.2 ⟨hsource, hgoal, .file mode content.length, _, by simp [Disk.status, hfile], hset,
    rfl⟩

/-- A file is copied exactly if it is found and its copy has a location of its own. -/
theorem copyFileAs_ok_iff : (copyFileAs shown source target).runOn host = (.ok real, host') ↔
    real = host.disk.copyPath source target ∧ hasNull source = false ∧ hasNull real = false ∧
      ∃ s mode content p, host.disk.Copies source real s mode content p ∧
        host' = host.put p (.file mode content) := by
  unfold copyFileAs
  simp only [runOn_bind_ok_iff, runOn_copyTarget, runOn_pure]
  constructor
  · rintro ⟨_, _, ⟨⟩, _, mid, hbytes, _, _, hmode, ⟨⟩⟩
    obtain ⟨hsource, hgoal, s, mode, content, p, mode', hcopies, rfl⟩ := copies_of_copyBytes hbytes
    rw [runOn_copyMode_of_copies hsource hgoal hcopies] at hmode
    cases hmode
    exact ⟨rfl, hsource, hgoal, s, mode, content, p, hcopies, rfl⟩
  · rintro ⟨rfl, hsource, hgoal, s, mode, content, p, hcopies, rfl⟩
    obtain ⟨mode', hbytes⟩ := runOn_copyBytes hsource hgoal hcopies shown
    exact ⟨_, _, rfl, (), _, hbytes, (), _, runOn_copyMode_of_copies hsource hgoal hcopies mode', rfl⟩

/-! ### Entries that are copied -/

variable {existing : Bool} {depth : Nat} {n : Text} {e : Entry}

/-- A directory is only copied if its path can be resolved. -/
theorem resolve_of_copyTreeIn (h : (copyTreeIn existing depth source target).runOn host = (.ok (), host')) :
    hasNull source = false ∧ ∃ target, host.disk.resolve .look source = .ok target := by
  cases depth with
  | zero =>
    obtain ⟨-, disk, hdisk, -⟩ := runOn_change_ok_iff.1 h
    cases hdisk
  | succ depth =>
    obtain ⟨hnull, names, -, -, hnames, -⟩ := copyTreeIn_ok_iff.1 h
    obtain ⟨found, hresolve, -⟩ := Outcome.bind_eq_ok_iff.1 hnames
    exact ⟨hnull, found, hresolve⟩

/-- An entry is only copied if its path is not too long and has no null character. -/
theorem isTaken_of_copyEntry (h : host.disk.LeadsTo source s) (hn : IsName n)
    (hrun : (copyEntry existing depth n (joinTwo source n) goal).runOn host = (.ok [], host')) :
    IsTaken (joinTwo source n) ∧ isLongName n = false := by
  have hresolves : hasNull (joinTwo source n) = false ∧
      ∃ purpose target, host.disk.resolve purpose (joinTwo source n) = .ok target := by
    unfold copyEntry at hrun
    rw [runOn_bind_of_ok (runOn_ask _ host)] at hrun
    dsimp only at hrun
    split at hrun
    · obtain ⟨link, mid, hlook, -⟩ := runOn_bind_ok_iff.1 hrun
      obtain ⟨hnull, hlink, -⟩ := runOn_look_ok_iff.1 hlook
      obtain ⟨found, hresolve, -⟩ := Outcome.bind_eq_ok_iff.1 hlink
      exact ⟨by simpa using hnull, _, found, hresolve⟩
    · obtain ⟨_, mid, htree, -⟩ := runOn_bind_ok_iff.1 hrun
      obtain ⟨hnull, found, hresolve⟩ := resolve_of_copyTreeIn htree
      exact ⟨hnull, _, found, hresolve⟩
    · obtain ⟨_, mid, hfile, -⟩ := runOn_bind_ok_iff.1 hrun
      obtain ⟨real, hfile⟩ := runOn_discard_ok_iff.1 hfile
      obtain ⟨-, hnull, -, _, _, _, _, hcopies, -⟩ := copyFileAs_ok_iff.1 hfile
      exact ⟨hnull, _, _, hcopies.source⟩
  obtain ⟨hnull, purpose, found, hresolve⟩ := hresolves
  obtain ⟨hshort, hlength⟩ := h.short_of_resolve hn hresolve
  exact ⟨⟨hnull, hlength⟩, hshort⟩

/-- An entry of a directory is copied as what it is: a link is made, a directory is copied with all below
it, and the bytes and permission bits of a file are put at the location that its copy opens. -/
theorem copyEntry_ok_iff (h : host.disk.LeadsTo source s) (hn : IsName n)
    (he : host.disk.tree.lookup (s ++ [n]) = some e) :
    (copyEntry existing depth n (joinTwo source n) goal).runOn host = (.ok [], host') ↔
      (IsTaken (joinTwo source n) ∧ isLongName n = false) ∧
      match e with
      | .link link => hasNull link = false ∧ hasNull goal = false ∧ ∃ disk,
          host.disk.makeLink link goal = .ok disk ∧ host' = { host with disk }
      | .directory _ => (copyTreeIn existing depth (joinTwo source n) goal).runOn host = (.ok (), host')
      | .file mode content => hasNull (host.disk.copyPath (joinTwo source n) goal) = false ∧ ∃ p,
          host.disk.Copies (joinTwo source n) (host.disk.copyPath (joinTwo source n) goal)
            (s ++ [n]) mode content p ∧ host' = host.put p (.file mode content) := by
  by_cases htaken : IsTaken (joinTwo source n) ∧ isLongName n = false
  swap
  · exact iff_of_false (fun hrun => htaken (isTaken_of_copyEntry h hn hrun)) fun hall => htaken hall.1
  rw [and_iff_right htaken]
  obtain ⟨⟨hnull, hlength⟩, hshort⟩ := htaken
  have hplace := h.place_joinTwo hn hshort hlength
  rw [he] at hplace
  have hslash : Disk.asksForDirectory (PathText.joinTwo source n) = false := Disk.asksForDirectory_joinTwo hn
  have hstatus := Disk.status_of_place hplace hslash
  unfold copyEntry
  rw [runOn_bind_of_ok (runOn_ask _ host), hstatus]
  cases e with
  | link link =>
    have hlook : (look [joinTwo source n] (·.readLink (joinTwo source n))).runOn host = (.ok link, host) :=
      runOn_look_ok_iff.2 ⟨by simpa using hnull,
        by simp [Disk.readLink, Disk.resolve_of_place_link hplace hslash], rfl⟩
    dsimp only
    rw [runOn_bind_of_ok hlook, runOn_bind_pure_ok_iff, runOn_change_ok_iff]
    simp [and_assoc]
  | directory mode => exact runOn_bind_pure_ok_iff
  | file mode content =>
    have hfile := Disk.resolve_of_place_file Purpose.look_ne_write hplace
    rw [hslash] at hfile
    dsimp only
    rw [runOn_bind_pure_ok_iff, runOn_discard_ok_iff]
    simp only [copyFileAs_ok_iff]
    constructor
    · rintro ⟨real, rfl, -, hreal, s', mode', content', p, hcopies, rfl⟩
      cases hfile.symm.trans hcopies.source
      exact ⟨hreal, p, hcopies, rfl⟩
    · rintro ⟨hreal, p, hcopies, rfl⟩
      exact ⟨_, rfl, hnull, hreal, s ++ [n], mode, content, p, hcopies, rfl⟩

end Request

/-! ### Copies of a program -/

namespace FileSystem

variable {host : Host} {source target : Text}

/-- What a copy asks the host for: a tree if the source leads to a directory, and otherwise a file. -/
def copyRequest (disk : Disk) (source target : Text) : Request Unit :=
  if Request.hasNull source = false ∧ disk.leadsToDirectory source then Request.copyTree true source target
  else discard (Request.copyFile source target)

/-- A path that leads to a directory is one, and nothing is reported. -/
theorem run_isDir_of_leads {path : Text} (hnull : Request.hasNull path = false)
    (h : host.disk.leadsToDirectory path) : (isDir path).run host = (true, host) := by
  obtain ⟨d, hd⟩ := Disk.leadsToDirectory_iff.1 h
  have hstatus : host.disk.status path true = .ok (.directory (host.disk.directoryMode d)) := by
    simp [Disk.status, hd]
  rw [isDir, Host.run_bind_of_run (run_status?_of_ok (Disk.outcome_single.2 ⟨hnull, hstatus⟩))]
  rfl

/-- Looking whether a path leads to a directory leaves the disk as it is. -/
theorem run_isDir (path : Text) (host : Host) : ∃ log, (isDir path).run host =
    (decide (Request.hasNull path = false ∧ host.disk.leadsToDirectory path), { host with log }) := by
  by_cases h : Request.hasNull path = false ∧ host.disk.leadsToDirectory path
  · rw [decide_eq_true h]
    exact ⟨host.log, run_isDir_of_leads h.1 h.2⟩
  rw [decide_eq_false h]
  cases houtcome : Request.outcome [path] (·.status path true) host.disk with
  | ok status =>
    obtain ⟨hnull, hstatus⟩ := Disk.outcome_single.1 houtcome
    have hother : status.isDirectory = false := by simpa [hnull, Disk.leadsToDirectory, hstatus] using h
    refine ⟨host.log, ?_⟩
    rw [isDir, Host.run_bind_of_run (run_status?_of_ok houtcome), ← hother]
    rfl
  | error e =>
    obtain ⟨log, hrun⟩ := run_status?_of_error houtcome
    refine ⟨log, ?_⟩
    rw [isDir, Host.run_bind_of_run hrun]
    rfl

/-- A guarded request succeeds exactly if it gives a value, and its report leaves the disk as it is. -/
theorem run_isSuccess_guarded {α : Type} (request : Request α) (operation path : Text) (host : Host) :
    let after := (do return (← Host.guarded operation path request).isSuccess : HostM Bool).run host
    after.1 = (request.runOn host).1.isOk ∧ after.2.disk = (request.runOn host).2.disk := by
  rcases hrun : request.runOn host with ⟨e | a, host'⟩
  · obtain ⟨f, log, -, hguarded⟩ := Host.run_guarded_of_error hrun operation path
    rw [Host.run_bind_of_run hguarded]
    exact ⟨rfl, rfl⟩
  · rw [Host.run_bind_of_run (Host.run_guarded_of_ok hrun operation path)]
    exact ⟨rfl, rfl⟩

/-- A copy succeeds if its request does, and leaves the disk that this leaves. -/
theorem run_copy (source target : Text) (host : Host) : ∃ host₁, host₁.disk = host.disk ∧
    ((copy source target).run host).1 = ((copyRequest host.disk source target).runOn host₁).1.isOk ∧
    ((copy source target).run host).2.disk = ((copyRequest host.disk source target).runOn host₁).2.disk := by
  obtain ⟨log, hdir⟩ := run_isDir source host
  refine ⟨{ host with log }, rfl, ?_⟩
  rw [copy, Host.run_bind_of_run hdir, copyRequest]
  by_cases hdirectory : Request.hasNull source = false ∧ host.disk.leadsToDirectory source
  · rw [decide_eq_true hdirectory, if_pos rfl, if_pos hdirectory]
    have hrun := run_isSuccess_guarded (do Request.copyTree true source target; return target) "copytree"
      source { host with log }
    rw [Request.runOn_bind] at hrun
    rcases hresult : (Request.copyTree true source target).runOn { host with log } with ⟨e | _, host'⟩ <;>
      rw [hresult] at hrun <;> exact hrun
  · rw [decide_eq_false hdirectory, if_neg (by simp), if_neg hdirectory]
    have hrun := run_isSuccess_guarded (Request.copyFile source target) "copy" source { host with log }
    rw [Request.runOn_discard]
    rcases hresult : (Request.copyFile source target).runOn { host with log } with ⟨e | _, host'⟩ <;>
      rw [hresult] at hrun <;> exact hrun

/-- A file is copied exactly if it is found and its copy has a location of its own. -/
theorem run_copy_file_iff {disk : Disk} (h : ¬ host.disk.leadsToDirectory source) :
    (((copy source target).run host).1 = true ∧ ((copy source target).run host).2.disk = disk) ↔
      Request.hasNull source = false ∧ Request.hasNull (host.disk.copyPath source target) = false ∧
        ∃ s mode content p,
          host.disk.Copies source (host.disk.copyPath source target) s mode content p ∧
            disk = { host.disk with tree := host.disk.tree.put p (.file mode content) } := by
  obtain ⟨host₁, hdisk, hanswer, hafter⟩ := run_copy source target host
  rw [hanswer, hafter, copyRequest, if_neg fun hleads => h hleads.2, ← hdisk]
  constructor
  · rintro ⟨hok, rfl⟩
    rcases hrun : (discard (Request.copyFile source target)).runOn host₁ with ⟨e | _, last⟩
    · rw [hrun] at hok
      cases hok
    · obtain ⟨real, hcopy⟩ := Request.runOn_discard_ok_iff.1 hrun
      obtain ⟨rfl, hnull, hnull', s, mode, content, p, hcopies, rfl⟩ := Request.copyFileAs_ok_iff.1 hcopy
      exact ⟨hnull, hnull', s, mode, content, p, hcopies, rfl⟩
  · rintro ⟨hnull, hnull', s, mode, content, p, hcopies, rfl⟩
    have hcopy : (Request.copyFile source target).runOn host₁ =
        (.ok (host₁.disk.copyPath source target), host₁.put p (.file mode content)) :=
      Request.copyFileAs_ok_iff.2 ⟨rfl, hnull, hnull', s, mode, content, p, hcopies, rfl⟩
    rw [Request.runOn_discard, hcopy]
    exact ⟨rfl, rfl⟩

end FileSystem

end Primitives
