import Primitives.Proofs.Files.WholeFiles

/-!
# Writes that are complete or do nothing

A text is turned into bytes before its file is opened, and a file is opened before its bytes go. So a
write that fails leaves the disk as it was, and one that succeeds changes the one file that its path leads
to. A file that was written is opened by the same path again, at the same location. Since the bytes of two
texts behind each other are those of the one and the other, an append behind a write leaves what a single
write of both texts leaves.

## Main definitions

* `Disk.IsWritten`: a disk on which a path was written to.
* `FileSystem.store`: the writes of texts, in place of what a file holds or behind it.

## Main results

* `Disk.writeBytes_append_iff`: bytes that are written in two parts.
* `FileSystem.store_complete_and_appended`: writes of texts fail without a change, change one file when
  they succeed, and are composed by appending.
-/

namespace Primitives

open FileTree Surroundings

/-! ### Writes of bytes -/

namespace Disk

variable {disk disk' : Disk} {path : Text} {bytes : Bytes} {append : Bool} {p : Location}

/-- A disk on which bytes were written along a path that led to the location `p`: a file is there, either
with these bytes alone or, if they were added to a file, with the bytes and permission bits that it had.
Nothing else is different. -/
structure IsWritten (disk : Disk) (path : Text) (bytes : Bytes) (append : Bool) (p : Location)
    (disk' : Disk) : Prop where
  file : ∃ target, disk.resolve .write path = .ok target ∧ target.opened? = some p ∧
    disk'.tree.lookup p = some (.file target.mode (target.held append ++ bytes))
  others : ∀ q, q ≠ p → disk'.tree.lookup q = disk.tree.lookup q
  directory : disk'.directory = disk.directory

/-- Bytes can be written along a path that leads to a file or to a free location. -/
theorem exists_writeBytes_iff :
    (∃ disk', disk.writeBytes path bytes append = .ok disk') ↔
      ∃ target p, disk.resolve .write path = .ok target ∧ target.opened? = some p := by
  simp only [writeBytes_ok_iff]
  constructor
  · rintro ⟨disk', target, p, hresolve, hopened, -⟩
    exact ⟨target, p, hresolve, hopened⟩
  · rintro ⟨target, p, hresolve, hopened⟩
    exact ⟨_, target, p, hresolve, hopened, rfl⟩

theorem exists_isWritten (h : disk.writeBytes path bytes append = .ok disk') :
    ∃ p, disk.IsWritten path bytes append p disk' := by
  obtain ⟨target, p, hresolve, hopened, rfl⟩ := writeBytes_ok_iff.1 h
  refine ⟨p, ⟨target, hresolve, hopened, ?_⟩, fun q hne => ?_, rfl⟩
  · rw [lookup_put, if_pos rfl]
  · rw [lookup_put, if_neg hne]

/-- Bytes are written at once or in two parts, the second one behind the first. -/
theorem writeBytes_append_iff {front back : Bytes} {disk'' : Disk} :
    disk.writeBytes path (front ++ back) append = .ok disk'' ↔
      ∃ disk', disk.writeBytes path front append = .ok disk' ∧
        disk'.writeBytes path back true = .ok disk'' := by
  simp only [writeBytes_ok_iff]
  constructor
  · rintro ⟨target, p, hresolve, hopened, rfl⟩
    refine ⟨_, ⟨target, p, hresolve, hopened, rfl⟩, _, p, resolve_put_opened hresolve hopened _ _, rfl, ?_⟩
    simp [Target.mode, Target.held, put_put]
  · rintro ⟨_, ⟨target, p, hresolve, hopened, rfl⟩, target', p', hresolve', hopened', rfl⟩
    -- The second part is written to the file that the first one left.
    obtain rfl := Except.ok.inj (hresolve'.symm.trans (resolve_put_opened hresolve hopened _ _))
    obtain rfl : p = p' := Option.some.inj hopened'
    refine ⟨target, p, hresolve, hopened, ?_⟩
    simp [Target.mode, Target.held, put_put]

end Disk

/-! ### Writes of texts -/

namespace FileSystem

section

variable [Surroundings] {encoding path content : Text} {charset : Charset} {append : Bool} {host host' : Host}

/-- Puts a text into a file: in place of what it holds, or behind that if `append`. -/
def store (encoding : Text) (append : Bool) : Text → Text → HostM (Except EncodingFault Bool) :=
  if append then appendFile encoding else writeFile encoding

theorem store_eq (encoding : Text) (append : Bool) (path content : Text) :
    store encoding append path content =
      (do return (← Host.writeText path content encoding append).map HostResult.isSuccess) := by
  cases append <;> rfl

/-- A text is stored, or the disk stays as it is. -/
theorem run_store (hnamed : encoding? encoding = some (.text charset)) (append : Bool)
    (path content : Text) (host : Host) :
    ∃ success host', (store encoding append path content).run host = (.ok success, host') ∧
      ((success = true ∧ ∃ bytes disk, charset.encode content = .ok bytes ∧
          Request.hasNull path = false ∧ host.disk.writeBytes path bytes append = .ok disk ∧
          host' = { host with disk }) ∨
        (success = false ∧ host'.disk = host.disk ∧ ∀ bytes disk, charset.encode content = .ok bytes →
          Request.hasNull path = false → host.disk.writeBytes path bytes append ≠ .ok disk)) := by
  obtain ⟨result, host', hrun, hresult⟩ :=
    Host.run_writeText_of_charset (Charset.named_of_encoding? hnamed "encode") path content append host
  have hstore : (store encoding append path content).run host = (.ok result.isSuccess, host') := by
    rw [store_eq, Host.run_bind_of_run hrun]
    rfl
  refine ⟨result.isSuccess, host', hstore, ?_⟩
  rcases hresult with ⟨hsuccess, bytes, disk, hencode, houtcome, rfl⟩ | ⟨hfailure, ⟨log, rfl⟩, hnot⟩
  · obtain ⟨hnull, hwrite⟩ := Disk.outcome_single.1 houtcome
    exact .inl ⟨hsuccess, bytes, disk, hencode, hnull, hwrite, rfl⟩
  · refine .inr ⟨hfailure, rfl, fun bytes disk hencode hnull hwrite => ?_⟩
    exact hnot bytes disk hencode (Disk.outcome_single.2 ⟨hnull, hwrite⟩)

/-- A text is stored if it has bytes and its path can be written to. -/
theorem run_store_true_iff (hnamed : encoding? encoding = some (.text charset)) :
    (store encoding append path content).run host = (.ok true, host') ↔
      ∃ bytes disk, charset.encode content = .ok bytes ∧ Request.hasNull path = false ∧
        host.disk.writeBytes path bytes append = .ok disk ∧ host' = { host with disk } := by
  obtain ⟨success, host'', hrun, hresult⟩ := run_store hnamed append path content host
  rw [hrun]
  rcases hresult with ⟨rfl, bytes, disk, hencode, hnull, hwrite, rfl⟩ | ⟨rfl, -, hnot⟩
  · constructor
    · intro hstored
      exact ⟨bytes, disk, hencode, hnull, hwrite, (Prod.mk.inj hstored).2.symm⟩
    · rintro ⟨bytes', disk', hencode', -, hwrite', rfl⟩
      obtain rfl := Except.ok.inj (hencode.symm.trans hencode')
      obtain rfl := Except.ok.inj (hwrite.symm.trans hwrite')
      rfl
  · constructor
    · intro hstored
      cases (Prod.mk.inj hstored).1
    · rintro ⟨bytes, disk, hencode, hnull, hwrite, -⟩
      exact absurd hwrite (hnot bytes disk hencode hnull)

/-- Two texts are stored at once or one behind the other. -/
theorem run_store_append_iff {charset : StandardCharset}
    (hnamed : encoding? encoding = some (.text charset.toCharset)) {first second : Text} {host'' : Host} :
    (store encoding append path (first ++ second)).run host = (.ok true, host'') ↔
      ∃ host', (store encoding append path first).run host = (.ok true, host') ∧
        (store encoding true path second).run host' = (.ok true, host'') := by
  simp only [run_store_true_iff hnamed, StandardCharset.toCharset_encode_ok_iff, StandardCharset.encode_append_ok_iff]
  constructor
  · rintro ⟨_, disk'', ⟨front, back, hfront, hback, rfl⟩, hnull, hwrite, rfl⟩
    obtain ⟨disk', hwrite, hwrite'⟩ := Disk.writeBytes_append_iff.1 hwrite
    exact ⟨_, ⟨front, disk', hfront, hnull, hwrite, rfl⟩, back, disk'', hback, hnull, hwrite', rfl⟩
  · rintro ⟨_, ⟨front, disk', hfront, hnull, hwrite, rfl⟩, back, disk'', hback, -, hwrite', rfl⟩
    exact ⟨front ++ back, disk'', ⟨front, back, hfront, hback, rfl⟩, hnull,
      Disk.writeBytes_append_iff.2 ⟨disk', hwrite, hwrite'⟩, rfl⟩

/-- Writes and appends of texts succeed if the text has bytes in the encoding and the path leads to a file
or to a free location. A write that fails leaves the disk as it is, and one that succeeds changes the file
at this location and nothing else. Behind either, an append leaves the host that a single write or append
of both texts leaves. -/
theorem store_complete_and_appended {charset : StandardCharset}
    (hnamed : encoding? encoding = some (.text charset.toCharset)) :
    (∀ append path content host, ∃ success host',
      (store encoding append path content).run host = (.ok success, host') ∧
      (success = true ↔ (∃ bytes, charset.encode content = .ok bytes) ∧ Request.hasNull path = false ∧
        ∃ target p, host.disk.resolve .write path = .ok target ∧ target.opened? = some p) ∧
      (success = false → host'.disk = host.disk) ∧
      (success = true → ∃ bytes p, charset.encode content = .ok bytes ∧
        host.disk.IsWritten path bytes append p host'.disk)) ∧
    ∀ append path first second host host'',
      (store encoding append path (first ++ second)).run host = (.ok true, host'') ↔
        ∃ host', (store encoding append path first).run host = (.ok true, host') ∧
          (appendFile encoding path second).run host' = (.ok true, host'') := by
  refine ⟨fun append path content host => ?_,
    fun append path first second host host'' => run_store_append_iff hnamed⟩
  obtain ⟨success, host', hrun, hresult⟩ := run_store hnamed append path content host
  simp only [StandardCharset.toCharset_encode_ok_iff] at hresult
  refine ⟨success, host', hrun, ?_⟩
  rcases hresult with ⟨rfl, bytes, disk, hencode, hnull, hwrite, rfl⟩ | ⟨rfl, hdisk, hnot⟩
  · obtain ⟨p, hwritten⟩ := Disk.exists_isWritten hwrite
    exact ⟨iff_of_true rfl ⟨⟨bytes, hencode⟩, hnull, Disk.exists_writeBytes_iff.1 ⟨disk, hwrite⟩⟩,
      fun hfailed => absurd hfailed.symm Bool.false_ne_true, fun _ => ⟨bytes, p, hencode, hwritten⟩⟩
  · refine ⟨iff_of_false Bool.false_ne_true ?_, fun _ => hdisk,
      fun hsuccess => absurd hsuccess Bool.false_ne_true⟩
    rintro ⟨⟨bytes, hencode⟩, hnull, hopened⟩
    obtain ⟨disk, hwrite⟩ := Disk.exists_writeBytes_iff.2 hopened
    exact hnot bytes disk hencode hnull hwrite

end

/-- Two characters that are written to a new file one after the other, and a third one that ASCII has no
byte for. -/
theorem store_complete_and_appended_accent :
    encoding? "ascii" = some (.text StandardCharset.ascii.toCharset) ∧
      ∃ host' host'', (writeFile "ascii" "f" "a").run (.ofDisk ⟨.empty, .root⟩) = (.ok true, host') ∧
        (appendFile "ascii" "f" "b").run host' = (.ok true, host'') ∧
        (writeFile "ascii" "f" "ab").run (.ofDisk ⟨.empty, .root⟩) = (.ok true, host'') ∧
        ∃ final, (writeFile "ascii" "f" "é").run host'' = (.ok false, final) ∧
          final.disk = host''.disk := by
  have hnamed : encoding? "ascii" = some (.text StandardCharset.ascii.toCharset) := rfl
  obtain ⟨hcomplete, hcomposed⟩ := store_complete_and_appended hnamed
  have hplace : Disk.place ⟨.empty, .root⟩ "f" = .ok (["f"], none) :=
    Disk.place_name rfl (by decide) (by decide)
  have hwrite : (store "ascii" false "f" "ab").run (.ofDisk ⟨.empty, .root⟩) = (.ok true, _) :=
    (run_store_true_iff hnamed).2
      ⟨[97, 98], _, rfl, by decide, Disk.writeBytes_of_place_none hplace (by decide) _ _, rfl⟩
  obtain ⟨host', hfirst, hsecond⟩ := (hcomposed false "f" "a" "b" _ _).1 hwrite
  refine ⟨hnamed, host', _, hfirst, hsecond, hwrite, ?_⟩
  obtain ⟨success, final, hrun, hsuccess, hsame, -⟩ := hcomplete false "f" "é" _
  have hfailure : success = false := by
    refine Bool.eq_false_iff.2 fun htrue => ?_
    obtain ⟨⟨bytes, hencode⟩, -⟩ := hsuccess.1 htrue
    exact nomatch hencode
  subst hfailure
  exact ⟨final, hrun, hsame rfl⟩

end FileSystem

end Primitives
