import Primitives.Proofs.Files.Places
import Primitives.Proofs.Files.Runs

/-!
# Listings

A directory is listed with everything below it that is reached without passing through a link: each entry
once, and in front of the directories that it lies in, so that it can be removed before them. This holds
while no path on the way gets too long for a host call; then nothing is reported and nothing is left out.

## Main definitions

* `Disk.LeadsTo`: paths that lead to a directory of the tree.
* `FileTree.TakesBelow`: locations that all have a path that host calls take.
* `FileTree.IsListing`: complete listings, entries in front of the directories that they lie in.

## Main results

* `Request.runOn_walkUpwards`: the walk below a directory gives a listing.
-/

namespace Primitives

open FileTree PathText

/-! ### Paths that lead to directories -/

/-- A path that calls take: without the null character and not too long. -/
def Request.IsTaken (path : Text) : Prop :=
  hasNull path = false ∧ (Utf8.encode path).length ≤ pathLimit

/-- The paths of all entries at and below a location are taken by calls, if it has the given path. -/
def FileTree.TakesBelow (t : FileTree) (path : Text) (p : Location) : Prop :=
  ∀ q, (t.lookup (p ++ q)).isSome → Request.IsTaken (join path q) ∧ ∀ n ∈ q, isLongName n = false

theorem FileTree.TakesBelow.child {t : FileTree} {path : Text} {p : Location}
    (h : t.TakesBelow path p) (n : Text) : t.TakesBelow (joinTwo path n) (p ++ [n]) := by
  intro q hq
  rw [List.append_assoc, List.singleton_append] at hq
  obtain ⟨htaken, hshort⟩ := h (n :: q) hq
  exact ⟨htaken, fun m hm => hshort m (List.mem_cons_of_mem n hm)⟩

/-- A path gets longer by a name. -/
theorem PathText.length_lt_joinTwo (path : Text) {n : Text} (hn : IsName n) :
    (Utf8.encode path).length < (Utf8.encode (joinTwo path n)).length := by
  obtain ⟨first, slashes, heq, -, rfl, -⟩ := joinTwo_eq (p := path) hn.2.1
  have hpos : 0 < (Utf8.encode n).length := by
    obtain ⟨c, cs, rfl⟩ := List.exists_cons_of_ne_nil hn.1
    have hchar : 0 < (Utf8.encodeChar c).length := by
      unfold Utf8.encodeChar
      dsimp only
      split_ifs <;> simp
    simp only [Utf8.encode, List.flatMap_cons, List.length_append]
    omega
  rw [heq]
  simp only [Utf8.encode, List.flatMap_append, List.length_append] at hpos ⊢
  omega

namespace Disk

variable {disk : Disk} {path : Text} {p : Location}

/-- A path that leads to a directory of the tree. -/
structure LeadsTo (disk : Disk) (path : Text) (p : Location) : Prop where
  nonempty : path ≠ []
  short : (Utf8.encode path).length ≤ pathLimit
  leads : ∃ links, disk.tree.lead linkLimit ((SplitPath.ofText path).start disk.directory)
    (SplitPath.splitComponents path) = .ok (.live p, links)

/-- A directory at its place is led to. -/
theorem leadsTo_of_place {mode : Nat} (h : disk.place path = .ok (p, some (.directory mode))) :
    disk.LeadsTo path p := by
  obtain ⟨-, parent, n, hparent, hlast, -, hn, hlookup, -⟩ := exists_walk_of_place h
  obtain ⟨hne, hlength, ⟨links, hlead⟩, hname, -⟩ := resolveParent_eq_ok_iff.1 hparent
  refine ⟨hne, hlength, links, ?_⟩
  rw [eq_of_lastName (hname.symm.trans hlast), lead_append, hlead]
  exact lead_name_directory hn hlookup

/-- A path that is listed leads to a directory of the tree. -/
theorem exists_leadsTo_of_listNames {names : List Text} (h : disk.listNames path = .ok names) :
    ∃ p, disk.LeadsTo path p := by
  obtain ⟨target, hresolve, htarget⟩ := Outcome.bind_eq_ok_iff.1 h
  cases target with
  | directory d =>
    obtain ⟨p, removed⟩ := d
    obtain rfl : removed = 0 := by
      by_contra hremoved
      exact nomatch (if_pos hremoved).symm.trans htarget
    unfold resolve FileTree.resolve at hresolve
    split_ifs at hresolve with hempty hlong
    exact ⟨p, by simpa using hempty, Nat.le_of_not_lt hlong, walk_look_directory_iff.1 hresolve⟩
  | _ => cases htarget

namespace LeadsTo

variable (h : disk.LeadsTo path p)

include h

theorem resolve : disk.resolve .look path = .ok (.directory (.live p)) := by
  obtain ⟨links, hlead⟩ := h.leads
  rw [Disk.resolve, FileTree.resolve, if_neg (by simpa using h.nonempty),
    if_neg (Nat.not_lt.2 h.short)]
  exact walk_look_directory_iff.2 ⟨_, hlead⟩

theorem listNames : disk.listNames path = .ok (disk.tree.children p) := by
  simp [Disk.listNames, h.resolve, Standpoint.live]

/-- A path continued by a name is resolved up to the name, if it is not too long. -/
theorem resolveParent_joinTwo {n : Text} (hn : IsName n)
    (hlength : (Utf8.encode (joinTwo path n)).length ≤ pathLimit) :
    disk.tree.resolveParent disk.directory (joinTwo path n) =
      .ok ⟨.live p, .name n, asksForDirectory (joinTwo path n)⟩ := by
  obtain ⟨links, hlead⟩ := h.leads
  have hbegins := prefix_joinTwo path hn.2.1
  have hjoin : joinTwo path n ≠ [] := fun hnil => h.nonempty (List.prefix_nil.1 (hnil ▸ hbegins))
  rw [resolveParent_eq_ok_iff, start_of_beginning h.nonempty hbegins,
    splitComponents_joinTwo hn.1 hn.2.1, List.dropLast_concat, lastName_append, if_neg hn.2.2.1,
    if_neg hn.2.2.2]
  exact ⟨hjoin, hlength, ⟨links, hlead⟩, rfl, rfl⟩

/-- The place of a name in the directory, by a path that is not too long. -/
theorem place_joinTwo {n : Text} (hn : IsName n) (hshort : isLongName n = false)
    (hlength : (Utf8.encode (joinTwo path n)).length ≤ pathLimit) :
    disk.place (joinTwo path n) = .ok (p ++ [n], disk.tree.lookup (p ++ [n])) :=
  place_eq_ok_iff.2 ⟨_, n, h.resolveParent_joinTwo hn hlength, rfl,
    lookupName_ok_iff.2 ⟨rfl, hshort, rfl, rfl⟩⟩

/-- A path continued by a name is resolved only if neither is too long. -/
theorem short_of_resolve {n : Text} (hn : IsName n) {purpose : Purpose} {target : Target}
    (hresolve : disk.resolve purpose (joinTwo path n) = .ok target) :
    isLongName n = false ∧ (Utf8.encode (joinTwo path n)).length ≤ pathLimit := by
  have hlength : (Utf8.encode (joinTwo path n)).length ≤ pathLimit := by
    unfold Disk.resolve FileTree.resolve at hresolve
    split_ifs at hresolve with _ hlong
    exact Nat.le_of_not_lt hlong
  refine ⟨?_, hlength⟩
  have hparent := h.resolveParent_joinTwo hn hlength
  rcases disk.tree.resolve_cases disk.directory (joinTwo path n) with ⟨errno, herror, -⟩ |
    ⟨parent, -, hother, hlast, -⟩ | ⟨parent, links, m, hother, hlast, -, hwalk⟩
  · cases hparent.symm.trans herror
  · cases hparent.symm.trans hother
    exact absurd rfl (hlast n)
  · cases hparent.symm.trans hother
    cases hlast
    cases hlong : isLongName n with
    | false => rfl
    | true =>
      rw [Disk.resolve, hwalk, walk_name _ _ _ _ hn] at hresolve
      simp only [lookupName, Standpoint.live, hlong] at hresolve
      split at hresolve <;> cases hresolve

/-- The place of an entry of the directory. -/
theorem place_child (hdisk : disk.WellFormed) (htaken : disk.tree.TakesBelow path p) {n : Text}
    (hn : n ∈ disk.tree.children p) :
    disk.place (joinTwo path n) = .ok (p ++ [n], disk.tree.lookup (p ++ [n])) := by
  obtain ⟨⟨-, hlength⟩, hshort⟩ := htaken [n] (mem_children.1 hn)
  exact h.place_joinTwo (hdisk.tree.name_of_mem_children hn) (hshort n List.mem_cons_self) hlength

end LeadsTo

/-- A path with a name at its end does not end with a slash. -/
theorem asksForDirectory_append (s : Text) {n : Text} (hn : IsName n) :
    asksForDirectory (s ++ n) = false := by
  have hlast : n.getLast hn.1 ≠ '/' := fun heq => hn.2.1 (heq ▸ List.getLast_mem hn.1)
  rw [asksForDirectory, List.getLast?_append, List.getLast?_eq_some_getLast hn.1]
  simpa using hlast

theorem asksForDirectory_joinTwo {n : Text} (hn : IsName n) :
    asksForDirectory (joinTwo path n) = false := by
  obtain ⟨first, slashes, heq, -⟩ := joinTwo_eq (p := path) hn.2.1
  rw [heq]
  exact asksForDirectory_append first hn

/-- Whether a path is a directory by itself and not by a link. -/
def isRealDirectory (disk : Disk) (path : Text) : Bool :=
  disk.leadsToDirectory path && !disk.isLink path

/-- A path is a directory by itself if its place holds one. -/
theorem isRealDirectory_iff_place {e : Entry} (h : disk.place path = .ok (p, some e))
    (hslash : asksForDirectory path = false) :
    disk.isRealDirectory path ↔ ∃ mode, e = .directory mode := by
  simp only [isRealDirectory, Bool.and_eq_true, Bool.not_eq_true', ← Bool.not_eq_true]
  rw [leadsToDirectory_iff, isLink_iff_place, hslash]
  cases e with
  | file mode content =>
    rw [resolve_of_place_file (by decide) h]
    simp [hslash]
  | directory mode =>
    rw [resolve_of_place_directory (by decide) h]
    simp [h]
  | link target => simp [h]

namespace LeadsTo

variable (hdisk : disk.WellFormed) (h : disk.LeadsTo path p) (htaken : disk.tree.TakesBelow path p)

include hdisk h htaken

/-- The entries of a directory that are directories by themselves are those of the tree. -/
theorem isRealDirectory_child {n : Text} (hn : n ∈ disk.tree.children p) :
    disk.isRealDirectory (joinTwo path n) = disk.tree.isDirectory (p ++ [n]) := by
  have hplace := h.place_child hdisk htaken hn
  obtain ⟨e, he⟩ := Option.isSome_iff_exists.1 (mem_children.1 hn)
  rw [he] at hplace
  rw [Bool.eq_iff_iff, isDirectory_iff_of_place hplace, isRealDirectory_iff_place hplace
    (asksForDirectory_joinTwo (hdisk.tree.name_of_mem_children hn))]

theorem child {n : Text} (hn : disk.tree.isDirectory (p ++ [n])) :
    disk.LeadsTo (joinTwo path n) (p ++ [n]) := by
  obtain ⟨mode, hmode⟩ := (isDirectory_iff_lookup _ (by simp)).1 hn
  have hplace := h.place_child hdisk htaken (mem_children.2 (Option.isSome_of_eq_some hmode))
  rw [hmode] at hplace
  exact leadsTo_of_place hplace

end LeadsTo

end Disk

/-! ### Listings -/

namespace FileTree

variable {t : FileTree} {p : Location} {path : Text}

/-- Everything below a location, and nothing in front of an entry that it lies above of. -/
structure IsListing (t : FileTree) (p : Location) (below : List Location) : Prop where
  mem_iff : ∀ q, q ∈ below ↔ q ≠ [] ∧ (t.lookup (p ++ q)).isSome
  upwards : below.Pairwise fun q r => ¬ q <+: r

/-- The paths of listed entries, and whether each is a directory by itself. -/
def listed (t : FileTree) (path : Text) (p : Location) (below : List Location) : List (Text × Bool) :=
  below.map fun q => (join path q, t.isDirectory (p ++ q))

/-- What lies below the directories in a directory, and then its entries themselves. -/
def listingOf (directories names : List Text) (below : Text → List Location) : List Location :=
  (directories.flatMap fun n => (below n).map (n :: ·)) ++ names.map ([·])

theorem listed_listingOf (directories names : List Text) (below : Text → List Location) :
    t.listed path p (listingOf directories names below) =
      (directories.flatMap fun n => t.listed (joinTwo path n) (p ++ [n]) (below n)) ++
        names.map fun n => (joinTwo path n, t.isDirectory (p ++ [n])) := by
  simp [listed, listingOf, List.map_flatMap, join, Function.comp_def]

/-- The listings of the directories in a directory make up its listing. -/
theorem isListing_listingOf (ht : t.Closed) {directories names : List Text}
    {below : Text → List Location} (hdirectories : ∀ n, n ∈ directories ↔ t.isDirectory (p ++ [n]))
    (hnodup : directories.Nodup) (hnames : ∀ n, n ∈ names ↔ n ∈ t.children p) (hnodup' : names.Nodup)
    (hbelow : ∀ n ∈ directories, IsListing t (p ++ [n]) (below n)) :
    IsListing t p (listingOf directories names below) := by
  constructor
  · intro q
    simp only [listingOf, List.mem_append, List.mem_flatMap, List.mem_map]
    cases q with
    | nil => simp
    | cons m r =>
      have hcons : p ++ m :: r = p ++ [m] ++ r := by simp
      by_cases hr : r = []
      · subst hr
        have hnone : ∀ n ∈ directories, [] ∉ below n := fun n hn => by
          simp [(hbelow n hn).mem_iff]
        simpa [hnames, mem_children] using fun hn hnil => absurd hnil (hnone m hn)
      · have hne : ∀ n, [n] ≠ m :: r := by simp [Ne.symm hr]
        simp only [List.cons.injEq, hcons]
        constructor
        · rintro (⟨n, hn, r, hmem, rfl, rfl⟩ | ⟨n, -, rfl, rfl⟩)
          · exact ⟨by simp, (((hbelow n hn).mem_iff r).1 hmem).2⟩
          · exact absurd rfl hr
        · rintro ⟨-, hsome⟩
          have hm := (hdirectories m).2 (ht.isDirectory_of_append hr hsome)
          exact .inl ⟨m, hm, r, ((hbelow m hm).mem_iff r).2 ⟨hr, hsome⟩, rfl, rfl⟩
  · have hapart : ∀ {n m : Text} {q r : Location}, n ≠ m → ¬ n :: q <+: m :: r :=
      fun hne hle => hne (List.cons_prefix_cons.1 hle).1
    refine List.pairwise_append.2 ⟨List.pairwise_flatMap.2 ⟨fun n hn => ?_, ?_⟩, ?_, ?_⟩
    · rw [List.pairwise_map]
      exact (hbelow n hn).upwards.imp fun hnot hle => hnot (List.cons_prefix_cons.1 hle).2
    · refine hnodup.imp fun hne q hq r hr => ?_
      obtain ⟨q, -, rfl⟩ := List.mem_map.1 hq
      obtain ⟨r, -, rfl⟩ := List.mem_map.1 hr
      exact hapart hne
    · rw [List.pairwise_map]
      exact hnodup'.imp hapart
    · rintro q hq r hr hle
      obtain ⟨n, hn, hq⟩ := List.mem_flatMap.1 hq
      obtain ⟨q, hmem, rfl⟩ := List.mem_map.1 hq
      obtain ⟨m, -, rfl⟩ := List.mem_map.1 hr
      have hnil := (List.cons_prefix_cons.1 hle).2
      exact (((hbelow n hn).mem_iff q).1 hmem).1 (List.prefix_nil.1 hnil)

end FileTree

/-! ### Walks -/

namespace Request

variable {host : Host} {path : Text} {p : Location}

/-- A walk respects what its records respect. -/
theorem respects_walkUpwardsIn {R : Host → Host → Prop} (hrefl : ∀ host, R host host)
    (htrans : ∀ a b c, R a b → R b c → R a c)
    (hrecord : ∀ (host : Host) r, R host { host with log := host.log ++ [r] }) (depth : Nat)
    (path : Text) : (walkUpwardsIn depth path).Respects R := by
  induction depth generalizing path with
  | zero => exact respects_pure hrefl _
  | succ depth ih =>
    unfold walkUpwardsIn
    refine Respects.bind htrans (Respects.tryCatch htrans ?_ fun e => ?_) fun names => ?_
    · exact (respects_look hrefl _ _).bind htrans fun names => respects_pure hrefl _
    · have hreport : ∀ r, (do record r; return none : Request (Option (List Text))).Respects R := by
        intro r
        refine Respects.bind htrans (fun host => ?_) fun _ => respects_pure hrefl _
        rw [runOn_record]
        exact hrecord host r
      dsimp only
      split
      · exact (respects_throw hrefl e).bind htrans fun _ => hreport _
      · exact hreport _
    · cases names with
      | none => exact respects_pure hrefl _
      | some names =>
        refine (respects_ask hrefl _).bind htrans fun parts => ?_
        refine (respects_ask hrefl _).bind htrans fun real => ?_
        exact (Respects.mapM hrefl htrans fun p _ => ih p).bind htrans fun below =>
          respects_pure hrefl _

/-- Requests that give a value and leave the host as it is, one after another. -/
theorem runOn_mapM_of_ok {α β : Type} {f : β → Request α} {g : β → α} {l : List β}
    (h : ∀ b ∈ l, (f b).runOn host = (.ok (g b), host)) :
    (l.mapM f).runOn host = (.ok (l.map g), host) := by
  induction l with
  | nil => rfl
  | cons b l ih =>
    rw [List.mapM_cons, runOn_bind_of_ok (h b List.mem_cons_self),
      runOn_bind_of_ok (ih fun c hc => h c (List.mem_cons_of_mem b hc)), runOn_pure, List.map_cons]

/-- One level of a walk: first what lies below the names that are directories by themselves, and then the
names in some order, those in front that lead to no directory. -/
theorem runOn_walkUpwardsIn_succ {depth : Nat} {names : List Text}
    {below : Text → List (Text × Bool)} (hnull : hasNull path = false)
    (hnames : host.disk.listNames path = .ok names)
    (hbelow : ∀ n ∈ names, host.disk.isRealDirectory (joinTwo path n) →
      (walkUpwardsIn depth (joinTwo path n)).runOn host = (.ok (below n), host)) :
    ∃ listed : List Text, listed.Perm names ∧ (walkUpwardsIn (depth + 1) path).runOn host =
      (.ok ((names.filter fun n => host.disk.isRealDirectory (joinTwo path n)).flatMap below ++
        listed.map fun n => (joinTwo path n, host.disk.isRealDirectory (joinTwo path n))), host) := by
  let leads := fun n => host.disk.leadsToDirectory (joinTwo path n)
  let real := fun n => host.disk.isRealDirectory (joinTwo path n)
  refine ⟨names.filter (!leads ·) ++ names.filter leads,
    List.perm_append_comm.trans (List.filter_append_perm leads names), ?_⟩
  have hlook : (look [path] (·.listNames path)).runOn host = (.ok names, host) := by
    simp [outcome, hnull, hnames]
  have hparts : (names.map (joinTwo path)).partition host.disk.leadsToDirectory =
      ((names.filter leads).map (joinTwo path), (names.filter (!leads ·)).map (joinTwo path)) := by
    rw [List.partition_eq_filter_filter, List.filter_map, List.filter_map]
    rfl
  have hreal : ((names.filter leads).map (joinTwo path)).filter (!host.disk.isLink ·) =
      (names.filter real).map (joinTwo path) := by
    rw [List.filter_map, List.filter_filter]
    refine congrArg _ (List.filter_congr fun n _ => ?_)
    exact Bool.and_comm ..
  have hwalks : (((names.filter real).map (joinTwo path)).mapM (walkUpwardsIn depth)).runOn host =
      (.ok ((names.filter real).map below), host) := by
    rw [List.mapM_map]
    refine runOn_mapM_of_ok fun n hn => ?_
    obtain ⟨hn, hdirectory⟩ := List.mem_filter.1 hn
    exact hbelow n hn hdirectory
  have hothers : ((names.filter (!leads ·)).map (joinTwo path)).map (·, false) =
      (names.filter (!leads ·)).map fun n => (joinTwo path n, real n) := by
    rw [List.map_map]
    refine List.map_congr_left fun n hn => ?_
    have hleads : host.disk.leadsToDirectory (joinTwo path n) = false := by
      simpa [leads] using (List.mem_filter.1 hn).2
    simp [real, Disk.isRealDirectory, hleads]
  have hdirectories : ((names.filter leads).map (joinTwo path)).map (fun p =>
      (p, (((names.filter leads).map (joinTwo path)).filter (!host.disk.isLink ·)).contains p)) =
        (names.filter leads).map fun n => (joinTwo path n, real n) := by
    rw [List.map_map]
    refine List.map_congr_left fun n hn => ?_
    have hmem : joinTwo path n ∈ (names.filter leads).map (joinTwo path) := List.mem_map_of_mem hn
    have hleads : host.disk.leadsToDirectory (joinTwo path n) = true := (List.mem_filter.1 hn).2
    have hcontains : (((names.filter leads).map (joinTwo path)).filter
        (!host.disk.isLink ·)).contains (joinTwo path n) = real n := by
      rw [Bool.eq_iff_iff, List.contains_iff_mem, List.mem_filter, and_iff_right hmem]
      simp [real, Disk.isRealDirectory, hleads]
    rw [Function.comp_apply, hcontains]
  unfold walkUpwardsIn
  rw [runOn_bind_of_ok (runOn_tryCatch_of_ok (runOn_bind_of_ok hlook _) _)]
  dsimp only
  rw [runOn_bind_of_ok (runOn_ask _ host), hparts, runOn_bind_of_ok (runOn_ask _ host)]
  dsimp only
  rw [hothers, hdirectories, hreal, runOn_bind_of_ok hwalks, runOn_pure, List.append_assoc,
    ← List.map_append, List.flatMap]

/-- The walk below a directory of at most `depth` levels. -/
theorem runOn_walkUpwardsIn (hdisk : host.disk.WellFormed) {depth : Nat}
    (h : host.disk.LeadsTo path p) (hdepth : pathLimit < (Utf8.encode path).length + depth)
    (hnull : hasNull path = false) (htaken : host.disk.tree.TakesBelow path p) :
    ∃ below, host.disk.tree.IsListing p below ∧
      (walkUpwardsIn depth path).runOn host = (.ok (host.disk.tree.listed path p below), host) := by
  -- A path gets longer with each level, so it reaches its limit before the levels are used up.
  induction depth generalizing path p with
  | zero => exact absurd h.short (by omega)
  | succ depth ih =>
    have hmem : ∀ n, host.disk.tree.isDirectory (p ++ [n]) → n ∈ host.disk.tree.children p := by
      intro n hn
      obtain ⟨mode, hmode⟩ := (isDirectory_iff_lookup _ (by simp)).1 hn
      exact mem_children.2 (Option.isSome_of_eq_some hmode)
    have hchild : ∀ n, host.disk.tree.isDirectory (p ++ [n]) → ∃ below,
        host.disk.tree.IsListing (p ++ [n]) below ∧ (walkUpwardsIn depth (joinTwo path n)).runOn host =
          (.ok (host.disk.tree.listed (joinTwo path n) (p ++ [n]) below), host) := by
      intro n hn
      have hlonger := length_lt_joinTwo path (hdisk.tree.name_of_mem_children (hmem n hn))
      exact ih (h.child hdisk htaken hn) (by omega) (htaken [n] (mem_children.1 (hmem n hn))).1.1
        (htaken.child n)
    choose! below hlisting hrun using hchild
    have hreal : ∀ n ∈ host.disk.tree.children p,
        host.disk.isRealDirectory (joinTwo path n) = host.disk.tree.isDirectory (p ++ [n]) :=
      fun n hn => h.isRealDirectory_child hdisk htaken hn
    obtain ⟨names, hperm, hstep⟩ := runOn_walkUpwardsIn_succ hnull h.listNames
      fun n hn hdirectory => hrun n (by rwa [← hreal n hn])
    have hnodup := nodup_children hdisk.tree.nodup p
    refine ⟨listingOf ((host.disk.tree.children p).filter fun n => host.disk.tree.isDirectory (p ++ [n]))
      names below, ?_, ?_⟩
    · exact isListing_listingOf hdisk.tree.closed
        (fun n => List.mem_filter.trans (and_iff_right_of_imp (hmem n))) (hnodup.filter _)
        (fun n => hperm.mem_iff) (hperm.nodup_iff.2 hnodup)
        fun n hn => hlisting n (List.mem_filter.1 hn).2
    · rw [hstep, listed_listingOf, List.filter_congr hreal,
        List.map_congr_left fun n hn => by rw [hreal n (hperm.mem_iff.1 hn)]]

/-- Everything below a directory is listed, as long as the paths are taken by calls. -/
theorem runOn_walkUpwards (hdisk : host.disk.WellFormed) (h : host.disk.LeadsTo path p)
    (hnull : hasNull path = false) (htaken : host.disk.tree.TakesBelow path p) :
    ∃ below, host.disk.tree.IsListing p below ∧
      (walkUpwards path).runOn host = (.ok (host.disk.tree.listed path p below), host) :=
  runOn_walkUpwardsIn hdisk h (by omega) hnull htaken

end Request

end Primitives
