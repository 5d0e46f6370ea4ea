import Containr.Tls.Orders

/-!
# Certificates across all tasks

Whatever the order of the calls, a challenge token that can be served belongs to an order in
progress, and a stored row, a cached key and a served key come from an order that was made
for their domain, or from a row that was there at the start.
-/

namespace Containr.Tls

open Containr.Effect Containr.Effect.Program Containr.Effect.Pool

variable {lib : Libraries} {Thread : Type} [DecidableEq Thread]

def started (lib : Libraries) (rows : List Certificate) (tasks : Thread → Task) :
    Pool (CertFace lib) Thread (Option lib.CertifiedKey) (CertState lib) :=
  ⟨fun thread => (tasks thread).program lib, ⟨rows, Map.empty, Map.empty, [], 0, 0⟩⟩

abbrev Run (lib : Libraries) (rows : List Certificate) (tasks : Thread → Task)
    (history : List (Event (CertFace lib) Thread))
    (pool : Pool (CertFace lib) Thread (Option lib.CertifiedKey) (CertState lib)) : Prop :=
  Trace (authority lib).can (fun _ _ _ => True) (started lib rows tasks) history pool

def FromRow (log : Log lib) (domain : String) (entry : CachedCertificate lib) : Prop :=
  ∃ stored : Certificate, ⟨.getCertificateByDomain domain, .ok (some stored)⟩ ∈ log ∧
    entry.id = stored.id ∧ entry.expiresAt = stored.expiresAt ∧
    lib.certifiedKey stored.certPem stored.keyPem = some entry.key

/-- The key belongs to the row that was read and had not ended when the clock was read. -/
def Served (log : Log lib) (domain : String) (key : lib.CertifiedKey) : Prop :=
  ∃ (current : Certificate) (now : Time),
    Followed log ⟨.getCertificateByDomain domain, .ok (some current)⟩ ⟨.utcNow, now⟩ ∧
    now < current.expiresAt ∧
    (lib.certifiedKey current.certPem current.keyPem = some key ∨
      ∃ entry : CachedCertificate lib, ⟨.cached domain, some entry⟩ ∈ log ∧
        entry.id = current.id ∧ entry.expiresAt = current.expiresAt ∧ entry.key = key)

/-- A call of any task. -/
structure Ruled (log : Log lib) (op : CertOp lib) : Prop where
  saves : ∀ certificate, op = .saveCertificate certificate → Earned log certificate
  caches : ∀ domain entry, op = .insertCached domain entry → FromRow log domain entry
  tokens : (∃ token keyAuth, op = .addChallenge token keyAuth) ∨ Selecting op ∨ Ordering op →
    Rounds log op

/-- Calls of which nothing has to be known. -/
def Plain : CertOp lib → Prop
  | .select _ _ | .newOrder _ | .addChallenge _ _ | .saveCertificate _ | .insertCached _ _ => False
  | _ => True

section Tasks

variable {log : Log lib}

theorem plain_ruled {op : CertOp lib} (plain : Plain op) : Ruled log op where
  saves := by
    rintro _ rfl
    exact absurd plain id
  caches := by
    rintro _ _ rfl
    exact absurd plain id
  tokens := by
    rintro (⟨_, _, rfl⟩ | ⟨_, _, rfl⟩ | ⟨_, rfl⟩)
    · exact absurd plain id
    · exact absurd plain id
    · exact absurd plain id

theorem plain_goes {Value : Type} {program : Prog lib Value} (calls : program.Calls Plain) :
    program.Always Recording Ruled (fun _ _ => True) log := by
  have under : program.Under (fun _ _ => True) Plain fun _ => True := calls.under
  apply (under.recorded (fun _ _ plain => plain_ruled plain) log).mono
  exact fun _ _ _ => trivial

theorem rounds_ruled {op : CertOp lib} (rounds : Rounds log op) : Ruled log op where
  saves := by
    rintro certificate rfl
    obtain ⟨front, round, split, -, -, paced | ⟨⟨_, _, absurd⟩, -⟩⟩ := rounds
    · apply (paced.saves certificate rfl).subset
      intro call member
      rw [split]
      exact List.mem_append_right _ member
    · cases absurd
  caches := by
    rintro domain entry rfl
    obtain ⟨front, round, split, -, -, paced | ⟨⟨_, _, absurd⟩, -⟩⟩ := rounds
    · exact absurd paced.working id
    · cases absurd
  tokens _ := rounds

theorem stored_key_goes (domain : String) (current : Certificate) (now : Time)
    (read : Followed log ⟨.getCertificateByDomain domain, .ok (some current)⟩ ⟨.utcNow, now⟩)
    (valid : now < current.expiresAt) :
    (storedKey domain current).Always Recording Ruled
      (fun value made => ∀ key, value = some key → Served made domain key) log := by
  unfold storedKey
  split
  · apply always_pure.mpr
    exact fun _ absurd => by cases absurd
  · rename_i key parsed
    apply always_bind.mpr
    apply recorded_call
    · refine ⟨?_, ?_, ?_⟩
      · intro _ absurd
        cases absurd
      · intro _ _ same
        cases same
        obtain ⟨front, middle, back, split⟩ := read
        refine ⟨current, ?_, rfl, rfl, parsed⟩
        rw [split]
        simp
      · rintro (⟨_, _, absurd⟩ | ⟨_, _, absurd⟩ | ⟨_, absurd⟩)
        · cases absurd
        · cases absurd
        · cases absurd
    · intro _
      apply always_pure.mpr
      intro other same
      cases same
      exact ⟨current, now, read.append _, valid, Or.inl parsed⟩

theorem cached_key_goes (domain : String) (current : Certificate) (now : Time)
    (read : Followed log ⟨.getCertificateByDomain domain, .ok (some current)⟩ ⟨.utcNow, now⟩)
    (valid : now < current.expiresAt) :
    (cachedKey domain current).Always Recording Ruled
      (fun value made => ∀ key, value = some key → Served made domain key) log := by
  apply always_bind.mpr
  apply recorded_call (@plain_ruled lib log (.cached domain) trivial)
  intro cached
  cases cached with
  | none => exact stored_key_goes domain current now (read.append _) valid
  | some entry =>
      change Always _ _ (if entry.id = current.id ∧ entry.expiresAt = current.expiresAt
        then Program.pure (some entry.key) else storedKey domain current) _ _
      split
      · rename_i same
        apply always_pure.mpr
        intro key isKey
        cases isKey
        refine ⟨current, now, read.append _, valid, Or.inr ⟨entry, ?_, same.1, same.2, rfl⟩⟩
        exact List.mem_concat_self
      · exact stored_key_goes domain current now (read.append _) valid

theorem forget_key_goes (domain : String) :
    (forgetKey domain).Always Recording Ruled
      (fun value made => ∀ key, value = some key → Served made domain key) log := by
  apply always_bind.mpr
  apply recorded_call (@plain_ruled lib log (.removeCached domain) trivial)
  intro _
  apply always_pure.mpr
  exact fun _ absurd => by cases absurd

theorem load_cert_goes (domain : String) :
    (loadCert domain).Always Recording Ruled
      (fun value made => ∀ key, value = some key → Served made domain key) log := by
  apply always_bind.mpr
  apply recorded_call (@plain_ruled lib log (.getCertificateByDomain domain) trivial)
  intro answer
  have forgets : ∀ made : Log lib, (forgetKey domain).Always Recording Ruled
      (fun value made => ∀ key, value = some key → Served made domain key) made :=
    fun made => forget_key_goes domain
  cases answer with
  | error error => exact forgets _
  | ok found =>
      cases found with
      | none => exact forgets _
      | some current =>
          apply always_bind.mpr
          apply recorded_call (@plain_ruled lib _ .utcNow trivial)
          intro now
          split
          · rename_i valid
            apply cached_key_goes domain current now _ valid
            exact followed_of_mem List.mem_concat_self _
          · exact forgets _

theorem reserve_slots_plain (wanted held : Nat) : (reserveSlots lib wanted held).Calls Plain := by
  induction wanted generalizing held with
  | zero => exact calls_pure _
  | succ wanted ih =>
      apply Calls.bind (calls_perform trivial)
      intro free
      split
      · exact ih (held + 1)
      · apply Calls.bind
        · exact calls_for_all _ fun _ _ => calls_perform trivial
        · exact fun _ => calls_pure _

theorem reissue_plain (service : ContainerService) (requested : Option String) :
    (reissueCertificate service requested :
      ExceptT ReissueError (Program (CertFace lib)) (List String)).run.Calls Plain := by
  apply Calls.run_bind (calls_pure _)
  intro domains
  apply Calls.run_bind
  · apply calls_for_each
    intro domain _
    apply Calls.bind (calls_perform trivial)
    exact fun _ => calls_pure _
  intro _
  apply Calls.run_lift_bind (reserve_slots_plain _ _)
  intro reserved
  split
  · apply Calls.run_lift_bind
    · apply calls_for_all
      intro domain _
      apply Calls.bind (calls_perform trivial)
      exact fun _ => calls_perform trivial
    · exact fun _ => calls_run_pure _
  · exact calls_run_throw _

theorem task_ruled (task : Task) :
    (task.program lib).Always Recording Ruled (fun _ _ => True) [] := by
  cases task with
  | issuer enabled rounds =>
      apply always_bind.mpr
      have ruled := (certificate_task_rounds enabled rounds : Always _ _ _ _ ([] : Log lib)).restrict
        (fun _ _ _ _ possible => possible) fun _ _ => rounds_ruled
      apply ruled.mono
      exact fun _ _ _ => always_pure.mpr trivial
  | handshake serverName =>
      cases serverName with
      | none => exact always_pure.mpr trivial
      | some name => exact (load_cert_goes _).mono fun _ _ _ => trivial
  | reissue service requested =>
      apply (plain_goes (reissue_plain service requested)).bind
      exact fun _ _ _ => always_pure.mpr trivial
  | requests domains =>
      apply (plain_goes (calls_for_all domains fun _ _ => calls_perform trivial)).bind
      exact fun _ _ _ => always_pure.mpr trivial

end Tasks

/-- An answer that does not come from the rows or from the cache. -/
def Outside (call : Call (CertFace lib)) : Prop :=
  (∀ domain stored, call ≠ ⟨.getCertificateByDomain domain, .ok (some stored)⟩) ∧
    ∀ domain entry, call ≠ ⟨.cached domain, some entry⟩

def Announcing : CertOp lib → Prop
  | .addChallenge _ _ | .removeChallenge _ => True
  | _ => False

inductive Changes (before : CertState lib) : (op : CertOp lib) → op.Answer → CertState lib → Prop where
  | read (domain : String) : Changes before (.getCertificateByDomain domain)
      (.ok (lookup (·.domain) domain before.certificates)) before
  | saved (certificate : Certificate) {rows : List Certificate}
      (fits : saveRow certificate before.certificates = some rows) :
      Changes before (.saveCertificate certificate) (.ok ()) { before with certificates := rows }
  | deleted (domain : String) : Changes before (.deleteCertificateByDomain domain) (.ok ())
      { before with certificates := before.certificates.filter (·.domain ≠ domain) }
  | announced (token keyAuth : String) : Changes before (.addChallenge token keyAuth) ()
      { before with challenges := before.challenges.insert token keyAuth }
  | withdrawn (token : String) : Changes before (.removeChallenge token) ()
      { before with challenges := before.challenges.remove token }
  | looked (domain : String) : Changes before (.cached domain) (before.cache.get domain) before
  | cached (domain : String) (entry : CachedCertificate lib) :
      Changes before (.insertCached domain entry) ()
        { before with cache := before.cache.insert domain entry }
  | uncached (domain : String) : Changes before (.removeCached domain) ()
      { before with cache := before.cache.remove domain }
  /-- The channel and the order handles are all that may change. -/
  | other {op : CertOp lib} {answer : op.Answer} (queue : List String) (reserved orders : Nat)
      (outside : Outside ⟨op, answer⟩) (keeps : ¬Announcing op) :
      Changes before op answer
        { before with queue := queue, reserved := reserved, orders := orders }

/-- Calls answered from the rows or from the cache. -/
def Kept : CertOp lib → Prop
  | .getCertificateByDomain _ | .cached _ => True
  | _ => False

theorem outside_of {op : CertOp lib} (notKept : ¬Kept op) (answer : op.Answer) :
    Outside (⟨op, answer⟩ : Call (CertFace lib)) := by
  constructor
  · intro domain stored same
    cases same
    exact notKept trivial
  · intro domain entry same
    cases same
    exact notKept trivial

theorem refused_outside (domain message : String) :
    Outside (⟨.getCertificateByDomain domain, .error message⟩ : Call (CertFace lib)) := by
  constructor
  · intro other stored same
    cases same
  · intro other entry same
    cases same

theorem call_changes {op : CertOp lib} {before after : CertState lib} {answer : op.Answer}
    (possible : (authority lib).can op before answer after) : Changes before op answer after := by
  obtain ⟨choice, -, executed⟩ := possible
  cases op with
  | select receives renews =>
      cases choice with
      | true =>
          obtain ⟨certificates, challenges, cache, queue, reserved, orders⟩ := before
          cases queue with
          | nil =>
              cases executed
              exact .other _ _ _ (outside_of id _) id
          | cons domain rest =>
              cases executed
              exact .other _ _ _ (outside_of id _) id
      | false =>
          cases executed
          exact .other _ _ _ (outside_of id _) id
  | getCertificateByDomain domain =>
      cases choice with
      | none =>
          cases executed
          exact .read domain
      | some message =>
          cases executed
          exact .other _ _ _ (refused_outside domain message) id
  | saveCertificate certificate =>
      cases choice with
      | none =>
          dsimp only [authority, CertOp.exec] at executed
          cases fits : saveRow certificate before.certificates with
          | some rows =>
              rw [fits] at executed
              cases executed
              exact .saved certificate fits
          | none =>
              rw [fits] at executed
              cases executed
              exact .other _ _ _ (outside_of id _) id
      | some message =>
          cases executed
          exact .other _ _ _ (outside_of id _) id
  | deleteCertificateByDomain domain =>
      cases choice with
      | none =>
          cases executed
          exact .deleted domain
      | some message =>
          cases executed
          exact .other _ _ _ (outside_of id _) id
  | newOrder domain =>
      cases choice with
      | ok count =>
          cases executed
          exact .other _ _ _ (outside_of id _) id
      | error message =>
          cases executed
          exact .other _ _ _ (outside_of id _) id
  | addChallenge token keyAuth =>
      cases executed
      exact .announced token keyAuth
  | removeChallenge token =>
      cases executed
      exact .withdrawn token
  | cached domain =>
      cases executed
      exact .looked domain
  | insertCached domain entry =>
      cases executed
      exact .cached domain entry
  | removeCached domain =>
      cases executed
      exact .uncached domain
  | tryReserve =>
      cases executed
      split
      · exact .other _ _ _ (outside_of id _) id
      · exact .other _ _ _ (outside_of id _) id
  | trySend domain =>
      cases executed
      split
      · exact .other _ _ _ (outside_of id _) id
      · exact .other _ _ _ (outside_of id _) id
  | _ =>
      cases executed
      exact .other _ _ _ (outside_of id _) id

section Sources

variable {rows : List Certificate} {tasks : Thread → Task}
  {history : List (Event (CertFace lib) Thread)}
  {pool : Pool (CertFace lib) Thread (Option lib.CertifiedKey) (CertState lib)}

/-- The chain and the key were stored for the domain at the start or come from an order for it. -/
def Known (rows : List Certificate) (history : List (Event (CertFace lib) Thread))
    (certificate : Certificate) : Prop :=
  (∃ first ∈ rows, first.domain = certificate.domain ∧ first.certPem = certificate.certPem ∧
      first.keyPem = certificate.keyPem) ∨
    ∃ thread, Issued (own thread history) certificate.domain certificate.certPem certificate.keyPem

def Parsed (history : List (Event (CertFace lib) Thread)) (domain : String)
    (entry : CachedCertificate lib) : Prop := ∃ thread, FromRow (own thread history) domain entry

theorem own_append (thread : Thread) (history more : List (Event (CertFace lib) Thread)) :
    own thread (history ++ more) = own thread history ++ own thread more := by
  simp [own]

variable {certificate : Certificate}

theorem Known.append (known : Known rows history certificate)
    (more : List (Event (CertFace lib) Thread)) : Known rows (history ++ more) certificate := by
  rcases known with first | ⟨thread, issued⟩
  · exact Or.inl first
  · refine Or.inr ⟨thread, issued.subset fun call member => ?_⟩
    rw [own_append]
    exact List.mem_append_left _ member

theorem Parsed.append {domain : String} {entry : CachedCertificate lib}
    (parsed : Parsed history domain entry) (more : List (Event (CertFace lib) Thread)) :
    Parsed (history ++ more) domain entry := by
  obtain ⟨thread, stored, read, rest⟩ := parsed
  refine ⟨thread, stored, ?_, rest⟩
  rw [own_append]
  exact List.mem_append_left _ read

/-- The other fields do not matter. -/
theorem Known.congr {other : Certificate} (known : Known rows history certificate)
    (domain : other.domain = certificate.domain) (certPem : other.certPem = certificate.certPem)
    (keyPem : other.keyPem = certificate.keyPem) : Known rows history other := by
  unfold Known
  rw [domain, certPem, keyPem]
  exact known

theorem save_row_rows {before after : List Certificate}
    (saved : saveRow certificate before = some after) :
    ∀ row ∈ after, row ∈ before ∨ row.domain = certificate.domain ∧
      row.certPem = certificate.certPem ∧ row.keyPem = certificate.keyPem := by
  unfold saveRow at saved
  split_ifs at saved
  · cases saved
    intro row member
    obtain ⟨source, inBefore, rfl⟩ := List.mem_map.mp member
    split_ifs
    · exact Or.inr ⟨rfl, rfl, rfl⟩
    · exact Or.inl inBefore
  · cases saved
    intro row member
    rcases List.mem_append.mp member with old | new
    · exact Or.inl old
    · rw [List.mem_singleton.mp new]
      exact Or.inr ⟨rfl, rfl, rfl⟩

theorem save_row_domains {before after : List Certificate}
    (saved : saveRow certificate before = some after) (distinct : (before.map (·.domain)).Nodup) :
    (after.map (·.domain)).Nodup := by
  unfold saveRow at saved
  split_ifs at saved with present
  · cases saved
    have same : (before.map fun row => if row.domain = certificate.domain
        then { certificate with id := row.id } else row).map (·.domain) =
          before.map (·.domain) := by
      rw [List.map_map]
      apply List.map_congr_left
      intro row _
      by_cases isSame : row.domain = certificate.domain
      · simp [isSame]
      · simp [isSame]
    rw [same]
    exact distinct
  · cases saved
    rw [List.map_append]
    apply List.nodup_append.mpr
    refine ⟨distinct, by simp, ?_⟩
    intro domain member other only equal
    obtain ⟨row, inBefore, rfl⟩ := List.mem_map.mp member
    rw [List.map_singleton, List.mem_singleton] at only
    apply present
    exact List.any_eq_true.mpr ⟨row, inBefore, decide_eq_true (equal.trans only)⟩

/-- What holds of the shared state and of the answers taken from it. -/
structure Sourced (rows : List Certificate) (history : List (Event (CertFace lib) Thread))
    (state : CertState lib) : Prop where
  domains : (state.certificates.map (·.domain)).Nodup
  stored : ∀ row ∈ state.certificates, Known rows history row
  read : ∀ thread domain row,
    ⟨.getCertificateByDomain domain, .ok (some row)⟩ ∈ own thread history →
      Known rows history row ∧ row.domain = domain
  parsed : ∀ domain entry, state.cache.get domain = some entry → Parsed history domain entry
  looked : ∀ thread domain entry, ⟨.cached domain, some entry⟩ ∈ own thread history →
    Parsed history domain entry

variable {event : Event (CertFace lib) Thread}

theorem mem_own_snoc {thread : Thread} {call : Call (CertFace lib)}
    (member : call ∈ own thread (history ++ [event])) :
    call ∈ own thread history ∨ call = ⟨event.op, event.answer⟩ := by
  rw [own_append] at member
  rcases List.mem_append.mp member with old | new
  · exact Or.inl old
  · obtain ⟨other, filtered, rfl⟩ := List.mem_map.mp new
    rw [List.mem_singleton.mp (List.mem_filter.mp filtered).1]
    exact Or.inr rfl

theorem Sourced.outside {state after : CertState lib} {event : Event (CertFace lib) Thread}
    (sourced : Sourced rows history state) (outside : Outside ⟨event.op, event.answer⟩)
    (domains : (after.certificates.map (·.domain)).Nodup)
    (stored : ∀ row ∈ after.certificates, Known rows (history ++ [event]) row)
    (parsed : ∀ domain entry, after.cache.get domain = some entry →
      Parsed (history ++ [event]) domain entry) : Sourced rows (history ++ [event]) after where
  domains := domains
  stored := stored
  parsed := parsed
  read thread domain row member := by
    rcases mem_own_snoc member with old | new
    · obtain ⟨known, same⟩ := sourced.read thread domain row old
      exact ⟨known.append _, same⟩
    · exact absurd new.symm (outside.1 domain row)
  looked thread domain entry member := by
    rcases mem_own_snoc member with old | new
    · exact (sourced.looked thread domain entry old).append _
    · exact absurd new.symm (outside.2 domain entry)

theorem Sourced.call {before after : CertState lib} {event : Event (CertFace lib) Thread}
    (sourced : Sourced rows history before)
    (changes : Changes before event.op event.answer after)
    (ruled : Ruled (own event.thread history) event.op) :
    Sourced rows (history ++ [event]) after := by
  obtain ⟨thread, op, answer⟩ := event
  have kept : ∀ row ∈ before.certificates, Known rows (history ++ [⟨thread, op, answer⟩]) row :=
    fun row member => (sourced.stored row member).append _
  have keptCache : ∀ domain entry, before.cache.get domain = some entry →
      Parsed (history ++ [⟨thread, op, answer⟩]) domain entry :=
    fun domain entry found => (sourced.parsed domain entry found).append _
  cases changes with
  | read domain =>
      refine ⟨sourced.domains, kept, ?_, keptCache, ?_⟩
      · intro reader other row member
        rcases mem_own_snoc member with old | new
        · obtain ⟨known, same⟩ := sourced.read reader other row old
          exact ⟨known.append _, same⟩
        · obtain ⟨sameOp, sameAnswer⟩ := Sigma.mk.inj new
          cases sameOp
          have found : lookup (·.domain) domain before.certificates = some row :=
            (Except.ok.inj (eq_of_heq sameAnswer)).symm
          obtain ⟨inRows, ofDomain⟩ := lookup_eq_some_mem found
          exact ⟨kept row inRows, ofDomain⟩
      · intro reader other entry member
        rcases mem_own_snoc member with old | new
        · exact (sourced.looked reader other entry old).append _
        · cases (Sigma.mk.inj new).1
  | saved certificate fits =>
      have known : Known rows (history ++ [⟨thread, .saveCertificate certificate, .ok ()⟩])
          certificate := by
        rcases ruled.saves certificate rfl with issued | ⟨domain, stored, found, corrected⟩
        · exact Known.append (Or.inr ⟨thread, issued⟩) _
        · rw [corrected]
          exact ((sourced.read thread domain stored found).1.append _).congr rfl rfl rfl
      refine sourced.outside (outside_of id _) (save_row_domains fits sourced.domains) ?_ keptCache
      intro row member
      rcases save_row_rows fits row member with old | ⟨domain, certPem, keyPem⟩
      · exact kept row old
      · exact known.congr domain certPem keyPem
  | deleted domain =>
      refine sourced.outside (outside_of id _) ?_ ?_ keptCache
      · exact sourced.domains.sublist (List.filter_sublist.map _)
      · exact fun row member => kept row (List.mem_filter.mp member).1
  | announced token keyAuth =>
      exact sourced.outside (outside_of id _) sourced.domains kept keptCache
  | withdrawn token =>
      exact sourced.outside (outside_of id _) sourced.domains kept keptCache
  | looked domain =>
      refine ⟨sourced.domains, kept, ?_, keptCache, ?_⟩
      · intro reader other row member
        rcases mem_own_snoc member with old | new
        · obtain ⟨known, same⟩ := sourced.read reader other row old
          exact ⟨known.append _, same⟩
        · cases (Sigma.mk.inj new).1
      · intro reader other entry member
        rcases mem_own_snoc member with old | new
        · exact (sourced.looked reader other entry old).append _
        · obtain ⟨sameOp, sameAnswer⟩ := Sigma.mk.inj new
          cases sameOp
          exact keptCache domain entry (eq_of_heq sameAnswer).symm
  | cached domain entry =>
      refine sourced.outside (outside_of id _) sourced.domains kept ?_
      intro other found inCache
      rw [Map.get_insert] at inCache
      split_ifs at inCache with same
      · cases inCache
        rw [same]
        exact Parsed.append ⟨thread, ruled.caches domain entry rfl⟩ _
      · exact keptCache other found inCache
  | uncached domain =>
      refine sourced.outside (outside_of id _) sourced.domains kept ?_
      intro other found inCache
      rw [Map.get_remove] at inCache
      split_ifs at inCache
      exact keptCache other found inCache
  | other queue reserved orders outside keeps =>
      exact sourced.outside outside sourced.domains kept keptCache

theorem run_ruled {front back : List (Event (CertFace lib) Thread)}
    (run : Run lib rows tasks (front ++ event :: back) pool) :
    Ruled (own event.thread front) event.op :=
  Trace.ruled (task_ruled (tasks event.thread)) run

theorem run_sourced (distinct : (rows.map (·.domain)).Nodup)
    (run : Run lib rows tasks history pool) : Sourced rows history pool.state := by
  apply run.invariant fun history pool => Sourced rows history pool.state
  · refine ⟨distinct, ?_, ?_, ?_, ?_⟩
    · exact fun row member => Or.inl ⟨row, member, rfl, rfl, rfl⟩
    · exact fun _ _ _ member => absurd member List.not_mem_nil
    · intro domain entry absurd
      cases absurd
    · exact fun _ _ _ member => absurd member List.not_mem_nil
  · intro history pool event after before sourced taken met
    have longer : Run lib rows tasks (history ++ [event]) after := before.step taken met
    obtain ⟨-, -, possible, -⟩ := taken.own
    exact sourced.call (call_changes possible) (run_ruled longer)

/-- Each domain has one row at most, and no row has a chain that was made for another domain. -/
theorem stored_certificates_known (distinct : (rows.map (·.domain)).Nodup)
    (run : Run lib rows tasks history pool) :
    (pool.state.certificates.map (·.domain)).Nodup ∧
      ∀ row ∈ pool.state.certificates, Known rows history row := by
  have sourced := run_sourced distinct run
  exact ⟨sourced.domains, sourced.stored⟩

def demoLibraries : Libraries where
  toLowercase := Text.toAsciiLowercase
  parseCertificateExpiry _ := some (90 * day)
  CertifiedKey := String × String
  certifiedKey certPem keyPem := some (certPem, keyPem)

def demoAnswers (routes : List String) (status : OrderStatus) : (authority demoLibraries).Policy
  | .select receives _, _ => receives
  | .lookupHost _, _ => true
  | .readConfig, _ => (⟨"paas.dev", none, routes⟩ : Hosts)
  | .listApps, _ => Except.ok []
  | .getAppByDomain _, _ => Except.ok none
  | .getCertificateByDomain _, _ | .saveCertificate _, _ | .deleteCertificateByDomain _, _ =>
      Option.none
  | .utcNow, _ => (0 : Time)
  | .newUuid, _ => Uuid.mk 1
  | .getOrCreateAccount, _ | .setReady _ _, _ => Except.ok ()
  | .newOrder _, _ => Except.ok 1
  | .authorization _ _, _ => Except.ok (.pending (some ("token", "token.thumbprint")))
  | .refresh _, _ => Except.ok status
  | .finalize _, _ => Except.ok "key"
  | .downloadCertificate _, _ => Except.ok (some "chain")
  | .addChallenge _ _, _ | .removeChallenge _, _ | .cached _, _ | .insertCached _ _, _
  | .removeCached _, _ | .tryReserve, _ | .release, _ | .send _, _ | .trySend _, _ => ()

/-- `true` renews certificates, `false` is a handshake for the dashboard. -/
def demoTasks (renews : Bool) : Task :=
  if renews then .issuer true 2 else .handshake (some "Paas.dev")

section Turns

variable {Thread : Type}

/-- The threads make calls in turn, with the status that an order has then. -/
def demoTurns (routes : List String) (turns : List (Thread × OrderStatus)) :
    List (Thread × (authority demoLibraries).Policy) :=
  turns.map fun turn => (turn.1, demoAnswers routes turn.2)

theorem demo_turns_admitted (routes : List String) (turns : List (Thread × OrderStatus)) :
    ∀ entry ∈ demoTurns routes turns, ∀ op state,
      (authority demoLibraries).Admits op (entry.2 op state) state := by
  intro entry member op state
  obtain ⟨⟨thread, status⟩, -, rfl⟩ := List.mem_map.mp member
  cases op with
  | select receives renews => cases receives with
    | true => exact rfl
    | false =>
        intro absurd
        cases absurd
  | _ => trivial

end Turns

def demoIssuance : List (Bool × OrderStatus) :=
  List.replicate 9 (true, .ready) ++ List.replicate 8 (true, .valid)

/-- The chain ends later than the row says. -/
def demoRow : Certificate := ⟨⟨9⟩, "files.paas.dev", "old chain", "old key", 5 * day, 0⟩

/-- The expiry of a stored row is corrected, and another domain gets its first certificate. -/
theorem demo_certificate_known : ∃ history pool,
    Run demoLibraries [demoRow] demoTasks history pool ∧
      pool.state.certificates = [{ demoRow with expiresAt := 90 * day },
        ⟨⟨1⟩, "paas.dev", "chain", "key", 90 * day, 0⟩] ∧
      (pool.state.certificates.map (·.domain)).Nodup ∧
      ∀ row ∈ pool.state.certificates, Known [demoRow] history row := by
  have ran : ((Pool.execute (authority demoLibraries) (demoTurns ["files.paas.dev"]
      (List.replicate 12 (true, .ready) ++ List.replicate 8 (true, .valid)))
      (started demoLibraries [demoRow] demoTasks)).map fun run => run.2.state.certificates) =
        some [{ demoRow with expiresAt := 90 * day },
          ⟨⟨1⟩, "paas.dev", "chain", "key", 90 * day, 0⟩] := by
    decide +kernel
  obtain ⟨⟨history, pool⟩, executed, stored⟩ := Option.map_eq_some_iff.mp ran
  have run : Run demoLibraries [demoRow] demoTasks history pool :=
    Trace.of_execute (demo_turns_admitted _ _) executed
  have distinct : ([demoRow].map (·.domain)).Nodup := by decide
  exact ⟨history, pool, run, stored, stored_certificates_known distinct run⟩

/-- A handshake that ends with a key has read a row for its name that had not expired. The key
was parsed from that row, or from one with the same id and expiry that some task read for the
name. -/
theorem handshake_key_known (distinct : (rows.map (·.domain)).Nodup)
    (run : Run lib rows tasks history pool) {thread : Thread} {name : String}
    (handshake : tasks thread = .handshake (some name)) {key : lib.CertifiedKey}
    (done : pool.threads thread = .pure (some key)) :
    ∃ (current stored : Certificate) (now : Time) (reader : Thread),
      Followed (own thread history)
        ⟨.getCertificateByDomain (Text.toAsciiLowercase name), .ok (some current)⟩
        ⟨.utcNow, now⟩ ∧
      now < current.expiresAt ∧ current.domain = Text.toAsciiLowercase name ∧
      Known rows history current ∧
      ⟨.getCertificateByDomain (Text.toAsciiLowercase name), .ok (some stored)⟩ ∈
        own reader history ∧
      stored.domain = Text.toAsciiLowercase name ∧ Known rows history stored ∧
      stored.id = current.id ∧ stored.expiresAt = current.expiresAt ∧
      lib.certifiedKey stored.certPem stored.keyPem = some key := by
  have sourced := run_sourced distinct run
  have program : ((started lib rows tasks).threads thread).Always Recording Ruled
      (fun value made => ∀ key, value = some key →
        Served made (Text.toAsciiLowercase name) key) [] := by
    change Always _ _ ((tasks thread).program lib) _ _
    rw [handshake]
    exact load_cert_goes _
  have ended := program.reaches (run.recorded thread)
  rw [done, always_pure] at ended
  obtain ⟨current, now, read, valid, source⟩ := ended key rfl
  have member : ⟨.getCertificateByDomain (Text.toAsciiLowercase name), .ok (some current)⟩ ∈
      own thread history := by
    obtain ⟨front, middle, back, split⟩ := read
    rw [split]
    simp
  obtain ⟨known, sameDomain⟩ := sourced.read thread _ current member
  rcases source with fresh | ⟨entry, cached, sameId, sameExpiry, rfl⟩
  · exact ⟨current, current, now, thread, read, valid, sameDomain, known, member, sameDomain, known,
      rfl, rfl, fresh⟩
  · obtain ⟨reader, stored, found, storedId, storedExpiry, parsed⟩ :=
      sourced.looked thread _ entry cached
    obtain ⟨knownStored, domainStored⟩ := sourced.read reader _ stored found
    exact ⟨current, stored, now, reader, read, valid, sameDomain, known, found, domainStored,
      knownStored, storedId.symm.trans sameId, storedExpiry.symm.trans sameExpiry, parsed⟩

/-- `none` renews certificates, the others are handshakes for the dashboard. -/
def demoHandshakes : Option Bool → Task
  | none => .issuer true 2
  | some _ => .handshake (some "Paas.dev")

/-- The second handshake finds the key of the first in the cache. -/
def demoServing : List (Option Bool × OrderStatus) :=
  demoIssuance.map (fun turn => (none, turn.2)) ++
    List.replicate 4 (some true, .valid) ++ List.replicate 3 (some false, .valid)

theorem demo_handshake_known : ∃ history pool key,
    Run demoLibraries [] demoHandshakes history pool ∧
      pool.threads (some false) = .pure (some key) ∧
      ∃ (current stored : Certificate) (now : Time) (reader : Option Bool),
        Followed (own (some false) history)
          ⟨.getCertificateByDomain "paas.dev", .ok (some current)⟩ ⟨.utcNow, now⟩ ∧
        now < current.expiresAt ∧ current.domain = "paas.dev" ∧ Known [] history current ∧
        ⟨.getCertificateByDomain "paas.dev", .ok (some stored)⟩ ∈ own reader history ∧
        stored.domain = "paas.dev" ∧ Known [] history stored ∧ stored.id = current.id ∧
        stored.expiresAt = current.expiresAt ∧
        demoLibraries.certifiedKey stored.certPem stored.keyPem = some key := by
  have ran : ((Pool.execute (authority demoLibraries) (demoTurns [] demoServing)
      (started demoLibraries [] demoHandshakes)).bind fun run =>
        (run.2.threads (some false)).returned.map Option.isSome) = some true := by
    decide +kernel
  obtain ⟨⟨history, pool⟩, executed, ended⟩ := Option.bind_eq_some_iff.mp ran
  obtain ⟨value, returned, isKey⟩ := Option.map_eq_some_iff.mp ended
  obtain ⟨key, rfl⟩ := Option.isSome_iff_exists.mp isKey
  have run : Run demoLibraries [] demoHandshakes history pool :=
    Trace.of_execute (demo_turns_admitted _ _) executed
  have done := returned_eq_some returned
  have distinct : (([] : List Certificate).map (·.domain)).Nodup := List.nodup_nil
  have lowered : Text.toAsciiLowercase "Paas.dev" = "paas.dev" := by decide
  have task : demoHandshakes (some false) = .handshake (some "Paas.dev") := rfl
  have known := handshake_key_known distinct run task done
  rw [lowered] at known
  exact ⟨history, pool, key, run, done, known⟩

end Sources

section Tokens

variable {rows : List Certificate} {tasks : Thread → Task}
  {history : List (Event (CertFace lib) Thread)}
  {pool : Pool (CertFace lib) Thread (Option lib.CertifiedKey) (CertState lib)}

variable {calls : Log lib}

/-- Between two orders, and before each wait, no token is left. -/
theorem Rounds.idle {op : CertOp lib} (rounds : Rounds calls op)
    (starts : Selecting op ∨ Ordering op) : Only calls [] := by
  obtain ⟨front, round, rfl, before, -, paced | ⟨-, none⟩⟩ := rounds
  · rcases starts with ⟨_, _, rfl⟩ | ⟨domain, rfl⟩
    · exact absurd paced.working id
    · exact before.append (paced.orders domain rfl).1
  · exact before.append none

variable {token keyAuth : String}

theorem Rounds.announced (rounds : Rounds calls (.addChallenge token keyAuth)) :
    InOrder calls token keyAuth := by
  obtain ⟨front, round, rfl, -, -, paced | ⟨⟨_, _, absurd⟩, -⟩⟩ := rounds
  · obtain ⟨before, domain, order, count, rest, rfl, quiet, offered⟩ :=
      paced.announces token keyAuth rfl
    exact ⟨front ++ before, domain, order, count, rest, by simp, quiet, offered⟩
  · cases absurd

theorem InOrder.append {more : Log lib} (inOrder : InOrder calls token keyAuth)
    (quiet : ∀ call ∈ more, ¬Selecting call.1 ∧ ¬Ordering call.1) :
    InOrder (calls ++ more) token keyAuth := by
  obtain ⟨front, domain, order, count, rest, rfl, before, index, offered⟩ := inOrder
  refine ⟨front, domain, order, count, rest ++ more, by simp, ?_, index,
    List.mem_append_left _ offered⟩
  intro call member
  rcases List.mem_append.mp member with old | new
  · exact before call old
  · exact quiet call new

def Announced (history : List (Event (CertFace lib) Thread)) (token keyAuth : String) : Prop :=
  Since (fun _ event => event.op = .addChallenge token keyAuth)
    (fun event => event.op = .removeChallenge token ∨ ∃ other, event.op = .addChallenge token other)
    history

theorem run_announced (run : Run lib rows tasks history pool) :
    ∀ token keyAuth, pool.state.challenges.get token = some keyAuth →
      Announced history token keyAuth := by
  apply run.invariant fun history pool => ∀ token keyAuth,
    pool.state.challenges.get token = some keyAuth → Announced history token keyAuth
  · intro token keyAuth absurd
    cases absurd
  · intro history pool event after before held taken met token keyAuth found
    obtain ⟨-, -, possible, -⟩ := taken.own
    have changes := call_changes possible
    obtain ⟨thread, op, answer⟩ := event
    have kept : pool.state.challenges.get token = some keyAuth →
        ¬(op = .removeChallenge token ∨ ∃ other, op = .addChallenge token other) →
        Announced (history ++ [⟨thread, op, answer⟩]) token keyAuth := by
      intro earlier quiet
      apply (held token keyAuth earlier).append
      intro event member
      rw [List.mem_singleton.mp member]
      exact quiet
    have keptQuiet : pool.state.challenges.get token = some keyAuth → ¬Announcing op →
        Announced (history ++ [⟨thread, op, answer⟩]) token keyAuth := by
      intro earlier quiet
      apply kept earlier
      rintro (rfl | ⟨other, rfl⟩)
      · exact quiet trivial
      · exact quiet trivial
    generalize after.state = state at changes found
    cases changes with
    | announced added addedKey =>
        by_cases same : added = token
        · rw [same, Map.get_insert_same] at found
          cases found
          rw [same]
          exact since_snoc _ rfl
        · rw [pool.state.challenges.get_insert_other addedKey (Ne.symm same)] at found
          apply kept found
          rintro (removed | ⟨other, isSame⟩)
          · cases removed
          · cases isSame
            exact same rfl
    | withdrawn removed =>
        rw [Map.get_remove] at found
        split_ifs at found with same
        apply kept found
        rintro (isSame | ⟨other, added⟩)
        · cases isSame
          exact same rfl
        · cases added
    | other queue reserved orders outside keeps => exact keptQuiet found keeps
    | _ => exact keptQuiet found id

/-- A task makes no order and does not wait while a token it announced is served. -/
theorem later_quiet {thread : Thread} {before later : List (Event (CertFace lib) Thread)}
    (run : Run lib rows tasks (before ++ ⟨thread, .addChallenge token keyAuth, ()⟩ :: later) pool)
    (kept : ∀ event ∈ later, event.op ≠ .removeChallenge token) :
    ∀ call ∈ own thread later, ¬Selecting call.1 ∧ ¬Ordering call.1 := by
  intro call member
  obtain ⟨event, filtered, rfl⟩ := List.mem_map.mp member
  obtain ⟨inLater, ofThread⟩ := List.mem_filter.mp filtered
  have sameThread : event.thread = thread := of_decide_eq_true ofThread
  obtain ⟨front, back, rfl⟩ := List.append_of_mem inLater
  have ruled : Ruled (own thread (before ++ ⟨thread, .addChallenge token keyAuth, ()⟩ :: front))
      event.op := by
    have cut : Run lib rows tasks
        ((before ++ ⟨thread, .addChallenge token keyAuth, ()⟩ :: front) ++ event :: back) pool := by
      simpa using run
    have ruled := run_ruled cut
    rw [sameThread] at ruled
    exact ruled
  have live : Live (own thread (before ++ ⟨thread, .addChallenge token keyAuth, ()⟩ :: front))
      token := by
    refine ⟨own thread before, ⟨.addChallenge token keyAuth, ()⟩, own thread front, ?_,
      ⟨keyAuth, rfl⟩, ?_⟩
    · simp [own]
    · intro call member same
      obtain ⟨other, chosen, rfl⟩ := List.mem_map.mp member
      exact kept other (List.mem_append_left _ (List.mem_filter.mp chosen).1) same
  have busy : ¬(Selecting event.op ∨ Ordering event.op) := by
    intro starts
    cases (ruled.tokens (Or.inr starts)).idle starts token live
  exact not_or.mp busy

/-- A token that can be served was offered by the latest order of some task, which has neither
waited nor made another order since. -/
theorem served_token_in_order (run : Run lib rows tasks history pool) {token keyAuth : String}
    (served : pool.state.challenges.get token = some keyAuth) :
    ∃ thread, InOrder (own thread history) token keyAuth := by
  obtain ⟨before, ⟨thread, op, answer⟩, later, rfl, added, kept⟩ :=
    run_announced run token keyAuth served
  cases added
  have ruled := run_ruled run
  have quiet := later_quiet run fun event member removed => kept event member (Or.inl removed)
  refine ⟨thread, ?_⟩
  have whole : own thread (before ++ ⟨thread, .addChallenge token keyAuth, answer⟩ :: later) =
      own thread before ++ ⟨.addChallenge token keyAuth, answer⟩ :: own thread later := by
    simp [own]
  rw [whole]
  apply (ruled.tokens (Or.inl ⟨token, keyAuth, rfl⟩)).announced.append
  intro call member
  rcases List.mem_cons.mp member with first | after
  · rw [first]
    constructor
    · rintro ⟨receives, renews, same⟩
      cases same
    · rintro ⟨domain, same⟩
      cases same
  · exact quiet call after

theorem demo_token_in_order : ∃ history pool,
    Run demoLibraries [] demoTasks history pool ∧
      pool.state.challenges.get "token" = some "token.thumbprint" ∧
      ∃ thread, InOrder (own thread history) "token" "token.thumbprint" := by
  have ran : ((Pool.execute (authority demoLibraries) (demoTurns [] (demoIssuance.take 8))
      (started demoLibraries [] demoTasks)).map fun run =>
        run.2.state.challenges.get "token") = some (some "token.thumbprint") := by
    decide +kernel
  obtain ⟨⟨history, pool⟩, executed, served⟩ := Option.map_eq_some_iff.mp ran
  have run : Run demoLibraries [] demoTasks history pool :=
    Trace.of_execute (demo_turns_admitted _ _) executed
  exact ⟨history, pool, run, served, served_token_in_order run served⟩

/-- Whatever the other tasks do, an order is made only for a domain that the task found to be
permitted and to need a certificate since its last wait, and every token that it announced
before is withdrawn. -/
theorem order_needed {thread : Thread} {domain : String} {answer : Except String (Order × Nat)}
    {front back : List (Event (CertFace lib) Thread)}
    (run : Run lib rows tasks (front ++ ⟨thread, .newOrder domain, answer⟩ :: back) pool) :
    Only (own thread front) [] ∧
      ∃ waited round, own thread front = waited ++ round ∧ (∀ call ∈ round, ¬Selecting call.1) ∧
        Permitted round domain ∧ Expiring round domain := by
  have rounds := (run_ruled run).tokens (Or.inr (Or.inr ⟨domain, rfl⟩))
  refine ⟨rounds.idle (Or.inr ⟨domain, rfl⟩), ?_⟩
  obtain ⟨waited, round, split, -, quiet, paced | ⟨⟨_, _, absurd⟩, -⟩⟩ := rounds
  · exact ⟨waited, round, split, quiet, (paced.orders domain rfl).2⟩
  · cases absurd

def orderedDomain (event : Event (CertFace demoLibraries) Bool) : Option String :=
  match event.op with
  | .newOrder domain => some domain
  | _ => none

/-- The first order becomes invalid, and the next renewal makes another. -/
theorem demo_order_needed : ∃ front answer pool,
    Run demoLibraries [] demoTasks (front ++ [⟨true, .newOrder "paas.dev", answer⟩]) pool ∧
      front.filterMap orderedDomain = ["paas.dev"] ∧ Only (own true front) [] ∧
      ∃ waited round, own true front = waited ++ round ∧ (∀ call ∈ round, ¬Selecting call.1) ∧
        Permitted round "paas.dev" ∧ Expiring round "paas.dev" := by
  have ran : ((Pool.execute (authority demoLibraries)
      (demoTurns [] (List.replicate 17 (true, .invalid)))
      (started demoLibraries [] demoTasks)).bind fun run => run.1.getLast?.map fun event =>
        (event.thread, orderedDomain event, run.1.dropLast.filterMap orderedDomain)) =
          some (true, some "paas.dev", ["paas.dev"]) := by
    decide +kernel
  obtain ⟨⟨history, pool⟩, executed, isLast⟩ := Option.bind_eq_some_iff.mp ran
  have run : Run demoLibraries [] demoTasks history pool :=
    Trace.of_execute (demo_turns_admitted _ _) executed
  obtain ⟨⟨thread, op, answer⟩, ends, same⟩ := Option.map_eq_some_iff.mp isLast
  obtain ⟨front, rfl⟩ := List.getLast?_eq_some_iff.mp ends
  obtain ⟨rfl, rest⟩ := Prod.mk.inj same
  obtain ⟨ordered, before⟩ := Prod.mk.inj rest
  rw [List.dropLast_concat] at before
  unfold orderedDomain at ordered
  split at ordered
  · rename_i domain isOrder
    cases isOrder
    cases ordered
    exact ⟨front, answer, pool, run, before, order_needed run⟩
  · cases ordered

end Tokens

end Containr.Tls
