import Primitives.Files.Request
import Primitives.Proofs.Outcomes

/-!
# Runs of requests

A request is run on a host and ends with a value or an error and with a host. This file says how the
elementary requests and their compositions run, so that no later proof opens the two layers that a
request is made of.

Two kinds of runs are told apart by how they treat the host. A request *keeps* a host if it leaves it as it
is, and *fails* on it if it ends with an error as well. A request *respects* a relation if it holds between
the hosts before and after every run.

## Main definitions

* `Request.runOn`: the run of a request on a host.
* `Request.Keeps`, `Request.Fails`, `Request.Respects`: what runs do to the host.

## Main results

* `Request.runOn_bind`, `Request.runOn_tryCatch`: the runs of compositions.
* `Request.runOn_look`, `Request.runOn_change`: the runs of a single call.
-/

namespace Primitives.Request

variable {α β : Type}

/-- Runs a request on a host. -/
def runOn (request : Request α) (host : Host) : Except HostError α × Host :=
  StateT.run (ExceptT.run request) host

/-! ### Compositions -/

@[simp] theorem runOn_pure (a : α) (host : Host) : (pure a : Request α).runOn host = (.ok a, host) :=
  rfl

@[simp] theorem runOn_throw (e : HostError) (host : Host) :
    (throw e : Request α).runOn host = (.error e, host) :=
  rfl

@[simp] theorem runOn_get (host : Host) : (get : Request Host).runOn host = (.ok host, host) :=
  rfl

@[simp] theorem runOn_modify (f : Host → Host) (host : Host) :
    (modify f : Request Unit).runOn host = (.ok (), f host) :=
  rfl

/-- A composition runs its second part on what the first one leaves behind, unless that ends with an
error. -/
theorem runOn_bind (a : Request α) (f : α → Request β) (host : Host) :
    (a >>= f).runOn host =
      match a.runOn host with
      | (.ok x, host') => (f x).runOn host'
      | (.error e, host') => (.error e, host') := by
  change StateT.run (ExceptT.run (a >>= f)) host = _
  simp only [ExceptT.run_bind, StateT.run_bind, runOn]
  rcases StateT.run (ExceptT.run a) host with ⟨_ | x, host'⟩ <;> rfl

theorem runOn_bind_of_ok {a : Request α} {host host' : Host} {x : α}
    (h : a.runOn host = (.ok x, host')) (f : α → Request β) :
    (a >>= f).runOn host = (f x).runOn host' := by
  rw [runOn_bind, h]

theorem runOn_bind_of_error {a : Request α} {host host' : Host} {e : HostError}
    (h : a.runOn host = (.error e, host')) (f : α → Request β) :
    (a >>= f).runOn host = (.error e, host') := by
  rw [runOn_bind, h]

/-- An error is handled on the host that it leaves behind. -/
theorem runOn_tryCatch (a : Request α) (handle : HostError → Request α) (host : Host) :
    (tryCatch a handle).runOn host =
      match a.runOn host with
      | (.ok x, host') => (.ok x, host')
      | (.error e, host') => (handle e).runOn host' := by
  unfold runOn
  rw [ExceptT.run_tryCatch, StateT.run_bind]
  rcases StateT.run (ExceptT.run a) host with ⟨_ | x, host'⟩ <;> rfl

theorem runOn_tryCatch_of_ok {a : Request α} {host host' : Host} {x : α}
    (h : a.runOn host = (.ok x, host')) (handle : HostError → Request α) :
    (tryCatch a handle).runOn host = (.ok x, host') := by
  rw [runOn_tryCatch, h]

theorem runOn_tryCatch_of_error {a : Request α} {host host' : Host} {e : HostError}
    (h : a.runOn host = (.error e, host')) (handle : HostError → Request α) :
    (tryCatch a handle).runOn host = (handle e).runOn host' := by
  rw [runOn_tryCatch, h]

/-! ### Single calls -/

/-- The outcome of a call on a disk: no call takes a path with the null character. -/
def outcome (paths : List Text) (f : Disk → Except Errno α) (disk : Disk) : Except HostError α :=
  if paths.any hasNull then .error .embeddedNull else (f disk).mapError (.call · paths)

/-- Looking leaves the host as it is. -/
@[simp] theorem runOn_look (paths : List Text) (f : Disk → Except Errno α) (host : Host) :
    (look paths f).runOn host = (outcome paths f host.disk, host) := by
  unfold look outcome
  by_cases hnull : paths.any hasNull
  · simp [hnull]
  · cases hf : f host.disk <;> simp [runOn_bind, hnull, hf]

/-- A change that fails leaves the host as it is. -/
theorem runOn_change (paths : List Text) (f : Disk → Except Errno Disk) (host : Host) :
    (change paths f).runOn host =
      match outcome paths f host.disk with
      | .ok disk => (.ok (), { host with disk })
      | .error e => (.error e, host) := by
  unfold change
  rw [runOn_bind, runOn_look]
  cases outcome paths f host.disk <;> rfl

@[simp] theorem runOn_ask (f : Disk → α) (host : Host) :
    (ask f).runOn host = (.ok (f host.disk), host) :=
  rfl

@[simp] theorem runOn_record (r : Record) (host : Host) :
    (record r).runOn host = (.ok (), { host with log := host.log ++ [r] }) :=
  rfl

/-! ### Requests that leave the host as it is -/

/-- A request leaves a host as it is, whatever it ends with. -/
def Keeps (request : Request α) (host : Host) : Prop :=
  (request.runOn host).2 = host

/-- A request ends with an error and leaves the host as it is. -/
def Fails (request : Request α) (host : Host) : Prop :=
  ∃ e, request.runOn host = (.error e, host)

section

variable {host : Host} {request : Request α} {next : α → Request β}

theorem Fails.keeps (h : request.Fails host) : request.Keeps host := by
  obtain ⟨e, hrun⟩ := h
  rw [Keeps, hrun]

theorem keeps_pure (a : α) : (pure a : Request α).Keeps host :=
  rfl

theorem keeps_throw (e : HostError) : (throw e : Request α).Keeps host :=
  rfl

theorem keeps_look (paths : List Text) (f : Disk → Except Errno α) : (look paths f).Keeps host := by
  rw [Keeps, runOn_look]

theorem keeps_ask (f : Disk → α) : (ask f).Keeps host :=
  rfl

theorem Keeps.bind (h : request.Keeps host) (hnext : ∀ a, (next a).Keeps host) :
    (request >>= next).Keeps host := by
  unfold Keeps at h ⊢
  rw [runOn_bind]
  rcases hrun : request.runOn host with ⟨_ | a, host'⟩
  · exact (congrArg Prod.snd hrun).symm.trans h
  · obtain rfl : host' = host := (congrArg Prod.snd hrun).symm.trans h
    exact hnext a

theorem Keeps.tryCatch {handle : HostError → Request α} (h : request.Keeps host)
    (hhandle : ∀ e, (handle e).Keeps host) : (tryCatch request handle).Keeps host := by
  unfold Keeps at h ⊢
  rw [runOn_tryCatch]
  rcases hrun : request.runOn host with ⟨e | a, host'⟩
  · obtain rfl : host' = host := (congrArg Prod.snd hrun).symm.trans h
    exact hhandle e
  · exact (congrArg Prod.snd hrun).symm.trans h

theorem Keeps.mapM {f : β → Request α} {l : List β} (h : ∀ b ∈ l, (f b).Keeps host) :
    (l.mapM f).Keeps host := by
  induction l with
  | nil => exact keeps_pure []
  | cons b l ih =>
    rw [List.mapM_cons]
    refine (h b List.mem_cons_self).bind fun a => ?_
    exact (ih fun c hc => h c (List.mem_cons_of_mem b hc)).bind fun as => keeps_pure _

theorem fails_throw (e : HostError) : (throw e : Request α).Fails host :=
  ⟨e, rfl⟩

theorem of_outcome_ok {paths : List Text} {f : Disk → Except Errno α} {disk : Disk} {a : α}
    (h : outcome paths f disk = .ok a) : f disk = .ok a := by
  unfold outcome at h
  split at h
  · exact nomatch h
  · cases hf : f disk with
    | error errno => simp [hf] at h
    | ok b => simpa [hf] using h

/-- A call fails for the null character in a path or with the number that the disk gives. -/
theorem of_outcome_error {paths : List Text} {f : Disk → Except Errno α} {disk : Disk} {e : HostError}
    (h : outcome paths f disk = .error e) :
    e = .embeddedNull ∨ ∃ errno, f disk = .error errno ∧ e = .call errno paths := by
  unfold outcome at h
  split at h
  · exact .inl (Except.error.inj h).symm
  · cases hf : f disk with
    | error errno =>
      rw [hf] at h
      exact .inr ⟨errno, rfl, (Except.error.inj h).symm⟩
    | ok a => simp [hf] at h

/-- A call fails for the null character exactly if its path has one. -/
theorem eq_embeddedNull_iff {path : Text} {f : Disk → Except Errno α} {disk : Disk} {e : HostError}
    (h : outcome [path] f disk = .error e) : e = .embeddedNull ↔ hasNull path := by
  unfold outcome at h
  by_cases hnull : hasNull path
  · obtain rfl : HostError.embeddedNull = e := by simpa [hnull] using h
    simp [hnull]
  · cases hf : f disk with
    | ok a => simp [hnull, hf] at h
    | error errno =>
      obtain rfl : HostError.call errno [path] = e := by simpa [hnull, hf] using h
      simp [hnull]

theorem fails_change {paths : List Text} {f : Disk → Except Errno Disk}
    (h : ∀ disk, f host.disk ≠ .ok disk) : (change paths f).Fails host := by
  unfold Fails
  rw [runOn_change]
  cases houtcome : outcome paths f host.disk with
  | error e => exact ⟨e, rfl⟩
  | ok disk => exact absurd (of_outcome_ok houtcome) (h disk)

/-- A composition fails if its first part does, or if that keeps the host and the second part fails. -/
theorem Fails.bind (h : request.Fails host) (next : α → Request β) : (request >>= next).Fails host := by
  obtain ⟨e, hrun⟩ := h
  exact ⟨e, runOn_bind_of_error hrun next⟩

theorem Keeps.bind_fails (h : request.Keeps host) (hnext : ∀ a, (next a).Fails host) :
    (request >>= next).Fails host := by
  unfold Keeps at h
  unfold Fails
  rw [runOn_bind]
  rcases hrun : request.runOn host with ⟨e | a, host'⟩
  · obtain rfl : host' = host := (congrArg Prod.snd hrun).symm.trans h
    exact ⟨e, rfl⟩
  · obtain rfl : host' = host := (congrArg Prod.snd hrun).symm.trans h
    exact hnext a

theorem fails_bind_of_ok {a : α} (h : request.runOn host = (.ok a, host)) (hnext : (next a).Fails host) :
    (request >>= next).Fails host := by
  unfold Fails
  rw [runOn_bind_of_ok h]
  exact hnext

theorem Fails.discard (h : request.Fails host) : (discard request).Fails host := by
  obtain ⟨e, hrun⟩ := h
  refine ⟨e, ?_⟩
  change ((fun _ => ()) <$> request).runOn host = _
  rw [map_eq_pure_bind, runOn_bind_of_error hrun]

theorem fails_bind_ask {f : Disk → α} (h : (next (f host.disk)).Fails host) :
    (ask f >>= next).Fails host :=
  h

theorem fails_bind_look {paths : List Text} {f : Disk → Except Errno α}
    (h : ∀ a, f host.disk = .ok a → (next a).Fails host) : (look paths f >>= next).Fails host := by
  unfold Fails
  rw [runOn_bind, runOn_look]
  cases houtcome : outcome paths f host.disk with
  | error e => exact ⟨e, rfl⟩
  | ok a => exact h a (of_outcome_ok houtcome)

theorem Fails.tryCatch {handle : HostError → Request α} (h : request.Fails host)
    (hhandle : ∀ e, (handle e).Fails host) : (tryCatch request handle).Fails host := by
  obtain ⟨e, hrun⟩ := h
  obtain ⟨e', hrun'⟩ := hhandle e
  exact ⟨e', by rw [runOn_tryCatch, hrun]; exact hrun'⟩

end

/-! ### Requests that respect a relation -/

/-- A request respects a relation between a host before and after. -/
def Respects (R : Host → Host → Prop) (request : Request α) : Prop :=
  ∀ host, R host (request.runOn host).2

theorem Respects.of_runOn {R : Host → Host → Prop} {request : Request α} {host host' : Host}
    {result : Except HostError α} (h : request.Respects R) (hrun : request.runOn host = (result, host')) :
    R host host' := by
  have hstep := h host
  rwa [hrun] at hstep

section

variable {R : Host → Host → Prop} (hrefl : ∀ host, R host host)
  (htrans : ∀ a b c, R a b → R b c → R a c) {request : Request α} {next : α → Request β}

include hrefl

theorem respects_pure (a : α) : (pure a : Request α).Respects R :=
  fun host => hrefl host

theorem respects_throw (e : HostError) : (throw e : Request α).Respects R :=
  fun host => hrefl host

theorem respects_look (paths : List Text) (f : Disk → Except Errno α) :
    (look paths f).Respects R := by
  intro host
  rw [runOn_look]
  exact hrefl host

theorem respects_ask (f : Disk → α) : (ask f).Respects R :=
  fun host => hrefl host

/-- A change respects what its effect on the disk does. -/
theorem respects_change {paths : List Text} {f : Disk → Except Errno Disk}
    (h : ∀ host disk, f host.disk = .ok disk → R host { host with disk }) :
    (change paths f).Respects R := by
  intro host
  rw [runOn_change]
  cases houtcome : outcome paths f host.disk with
  | error e => exact hrefl host
  | ok disk => exact h host disk (of_outcome_ok houtcome)

omit hrefl

include htrans in
theorem Respects.bind (h : request.Respects R) (hnext : ∀ a, (next a).Respects R) :
    (request >>= next).Respects R := by
  intro host
  have hfirst := h host
  rw [runOn_bind]
  rcases hrun : request.runOn host with ⟨_ | a, host'⟩ <;> rw [hrun] at hfirst
  · exact hfirst
  · exact htrans _ _ _ hfirst (hnext a host')

theorem Respects.discard (h : request.Respects R) : (discard request).Respects R := by
  intro host
  have hfirst := h host
  change R host (((fun _ => ()) <$> request).runOn host).2
  rw [map_eq_pure_bind, runOn_bind]
  rcases hrun : request.runOn host with ⟨_ | a, host'⟩ <;> rw [hrun] at hfirst <;> exact hfirst

include htrans

theorem Respects.tryCatch {handle : HostError → Request α} (h : request.Respects R)
    (hhandle : ∀ e, (handle e).Respects R) : (tryCatch request handle).Respects R := by
  intro host
  have hfirst := h host
  rw [runOn_tryCatch]
  rcases hrun : request.runOn host with ⟨e | a, host'⟩ <;> rw [hrun] at hfirst
  · exact htrans _ _ _ hfirst (hhandle e host')
  · exact hfirst

include hrefl

theorem Respects.mapM {f : β → Request α} {l : List β} (h : ∀ b ∈ l, (f b).Respects R) :
    (l.mapM f).Respects R := by
  induction l with
  | nil => exact respects_pure hrefl []
  | cons b l ih =>
    rw [List.mapM_cons]
    refine (h b List.mem_cons_self).bind htrans fun a => ?_
    exact (ih fun c hc => h c (List.mem_cons_of_mem b hc)).bind htrans fun as => respects_pure hrefl _

end

/-! ### Requests that leave the disk as it is -/

/-- On a disk a request leaves it as it is, and a value that it ends with satisfies a condition. -/
def Reads (disk : Disk) (P : α → Prop) (request : Request α) : Prop :=
  ∀ host, host.disk = disk →
    (request.runOn host).2.disk = disk ∧ ∀ a, (request.runOn host).1 = .ok a → P a

section

variable {disk : Disk} {P : α → Prop} {Q : β → Prop} {request : Request α} {next : α → Request β}

theorem reads_pure {a : α} (h : P a) : (pure a : Request α).Reads disk P :=
  fun _ hdisk => ⟨hdisk, fun _ heq => Except.ok.inj heq ▸ h⟩

theorem reads_throw (e : HostError) : (throw e : Request α).Reads disk P :=
  fun _ hdisk => ⟨hdisk, fun _ heq => nomatch heq⟩

theorem reads_look {paths : List Text} {f : Disk → Except Errno α} (h : ∀ a, f disk = .ok a → P a) :
    (look paths f).Reads disk P := by
  rintro host rfl
  rw [runOn_look]
  exact ⟨rfl, fun a houtcome => h a (of_outcome_ok houtcome)⟩

theorem reads_ask {f : Disk → α} (h : P (f disk)) : (ask f).Reads disk P := by
  rintro host rfl
  exact ⟨rfl, fun a heq => Except.ok.inj heq ▸ h⟩

theorem reads_record (r : Record) : (record r).Reads disk fun _ => True :=
  fun _ hdisk => ⟨hdisk, fun _ _ => trivial⟩

theorem Reads.bind (h : request.Reads disk P) (hnext : ∀ a, P a → (next a).Reads disk Q) :
    (request >>= next).Reads disk Q := by
  intro host hdisk
  obtain ⟨hkept, hvalue⟩ := h host hdisk
  rw [runOn_bind]
  rcases hrun : request.runOn host with ⟨e | a, host'⟩ <;> rw [hrun] at hkept hvalue
  · exact ⟨hkept, fun _ heq => nomatch heq⟩
  · exact hnext a (hvalue a rfl) host' hkept

theorem Reads.imp {P' : α → Prop} (h : request.Reads disk P) (himp : ∀ a, P a → P' a) :
    request.Reads disk P' :=
  fun host hdisk => ⟨(h host hdisk).1, fun a heq => himp a ((h host hdisk).2 a heq)⟩

theorem Reads.tryCatch {handle : HostError → Request α} (h : request.Reads disk P)
    (hhandle : ∀ e, (handle e).Reads disk P) : (tryCatch request handle).Reads disk P := by
  intro host hdisk
  obtain ⟨hkept, hvalue⟩ := h host hdisk
  rw [runOn_tryCatch]
  rcases hrun : request.runOn host with ⟨e | a, host'⟩ <;> rw [hrun] at hkept hvalue
  · exact hhandle e host' hkept
  · exact ⟨hkept, hvalue⟩

theorem Reads.mapM {f : β → Request α} {l : List β} (h : ∀ b ∈ l, (f b).Reads disk P) :
    (l.mapM f).Reads disk fun as => ∀ a ∈ as, P a := by
  induction l with
  | nil => exact reads_pure (by simp)
  | cons b l ih =>
    rw [List.mapM_cons]
    refine (h b List.mem_cons_self).bind fun a ha => ?_
    refine (ih fun c hc => h c (List.mem_cons_of_mem b hc)).bind fun as has => reads_pure ?_
    simpa using ⟨ha, has⟩

end

end Primitives.Request
