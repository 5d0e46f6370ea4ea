import Containr.Effect.Rules
import Containr.Tls.Acme

/-!
# What the certificate task calls

A round is what the task does between two waits. Within a round every order is for a domain
that was found to need one, every token belongs to the order at hand, and every certificate
that is saved comes from an order or from a stored row.
-/

namespace Containr.Tls

open Containr.Effect Containr.Effect.Program

variable {lib : Libraries}

abbrev Log (lib : Libraries) : Type := List (Call (CertFace lib))

def Live (log : Log lib) (token : String) : Prop :=
  Since (fun _ call => ∃ keyAuth, call.1 = .addChallenge token keyAuth)
    (fun call => call.1 = .removeChallenge token) log

def Only (log : Log lib) (tokens : List String) : Prop := ∀ token, Live log token → token ∈ tokens

section Tokens

variable {log : Log lib} {tokens : List String}

theorem only_nil : Only ([] : Log lib) [] := fun _ live => absurd live since_nil

theorem Only.quiet {new : Log lib} (only : Only log tokens)
    (none : ∀ call ∈ new, ∀ token keyAuth, call.1 ≠ .addChallenge token keyAuth) :
    Only (log ++ new) tokens := by
  intro token live
  apply only token
  apply live.of_append
  rintro _ call member ⟨keyAuth, adds⟩
  exact none call member token keyAuth adds

theorem Only.added (only : Only log tokens) (token keyAuth : String) :
    Only (log ++ [⟨.addChallenge token keyAuth, ()⟩]) (tokens ++ [token]) := by
  intro other live
  rcases since_append live with ⟨_, same⟩ | ⟨earlier, -⟩
  · cases same
    exact List.mem_concat_self
  · exact List.mem_append_left _ (only other earlier)

theorem Only.removed {token : String} (only : Only log (token :: tokens)) :
    Only (log ++ [⟨.removeChallenge token, ()⟩]) tokens := by
  intro other live
  rcases since_append live with ⟨_, same⟩ | ⟨earlier, kept⟩
  · cases same
  · rcases List.mem_cons.mp (only other earlier) with same | rest
    · rw [same] at kept
      exact absurd rfl kept
    · exact rest

theorem Only.append {new : Log lib} (only : Only log []) (onlyNew : Only new tokens) :
    Only (log ++ new) tokens := by
  intro token live
  obtain ⟨before, first, later, split, added, kept⟩ := live
  rcases List.append_eq_append_iff.mp split with ⟨middle, rfl, rest⟩ | ⟨middle, whole, rest⟩
  · exact onlyNew token ⟨middle, first, later, rest, added, kept⟩
  · cases middle with
    | nil =>
        rw [List.nil_append] at rest
        exact onlyNew token ⟨[], first, later, rest.symm, added, kept⟩
    | cons other middle =>
        obtain ⟨rfl, rfl⟩ := List.cons.inj rest
        have alive : Live log token := by
          refine ⟨before, first, middle, whole, added, fun call member => kept call ?_⟩
          exact List.mem_append_left _ member
        cases only token alive

end Tokens

def Followed (log : Log lib) (first second : Call (CertFace lib)) : Prop :=
  ∃ front middle back, log = front ++ first :: middle ++ second :: back

def trueExpiry (lib : Libraries) (certificate : Certificate) : Time :=
  (lib.parseCertificateExpiry certificate.certPem).getD certificate.expiresAt

/-- The domain has no certificate, or one that was about to end when the clock was read. -/
def Expiring (log : Log lib) (domain : String) : Prop :=
  ⟨.getCertificateByDomain domain, .ok none⟩ ∈ log ∨
    ∃ (stored : Certificate) (now : Time),
      Followed log ⟨.getCertificateByDomain domain, .ok (some stored)⟩ ⟨.utcNow, now⟩ ∧
        trueExpiry lib stored ≤ now + 30 * day

def managedHost (lib : Libraries) (hosts : Hosts) (domain : String) : Bool :=
  let normalized := lib.toLowercase (Text.trim domain)
  normalized = lib.toLowercase (Text.trim hosts.baseDomain) ||
    (storageHost hosts).any (Text.eqIgnoreAsciiCase · normalized)

/-- An app has the domain, it is one of the server's own, or a renewal pass lists it. -/
def Permitted (log : Log lib) (domain : String) : Prop :=
  (∃ app, ⟨.getAppByDomain domain, .ok (some app)⟩ ∈ log) ∨
    (∃ hosts, ⟨.readConfig, hosts⟩ ∈ log ∧ managedHost lib hosts domain = true) ∨
    ∃ (hosts : Hosts) (apps : List App), Followed log ⟨.readConfig, hosts⟩ ⟨.listApps, .ok apps⟩ ∧
      domain ∈ managedDomains lib hosts apps

def Issued (log : Log lib) (domain certPem keyPem : String) : Prop :=
  ∃ (order : Order) (count : Nat), ⟨.newOrder domain, .ok (order, count)⟩ ∈ log ∧
    ⟨.finalize order, .ok keyPem⟩ ∈ log ∧ ⟨.downloadCertificate order, .ok (some certPem)⟩ ∈ log

def Earned (log : Log lib) (certificate : Certificate) : Prop :=
  Issued log certificate.domain certificate.certPem certificate.keyPem ∨
    ∃ (domain : String) (stored : Certificate),
      ⟨.getCertificateByDomain domain, .ok (some stored)⟩ ∈ log ∧
        certificate = { stored with expiresAt := trueExpiry lib stored }

def Selecting (op : CertOp lib) : Prop := ∃ receives renews, op = .select receives renews

def Ordering (op : CertOp lib) : Prop := ∃ domain, op = .newOrder domain

def InOrder (log : Log lib) (token keyAuth : String) : Prop :=
  ∃ front domain order count rest, log = front ++ ⟨.newOrder domain, .ok (order, count)⟩ :: rest ∧
    (∀ call ∈ rest, ¬Selecting call.1 ∧ ¬Ordering call.1) ∧
    ∃ index, ⟨.authorization order index, .ok (.pending (some (token, keyAuth)))⟩ ∈ rest

/-- No wait, and no change of the handshakes' cache. -/
def Working : CertOp lib → Prop
  | .select _ _ | .insertCached _ _ => False
  | _ => True

/-- What may be called after the calls of a round. -/
structure Paced (round : Log lib) (op : CertOp lib) : Prop where
  working : Working op
  orders : ∀ domain, op = .newOrder domain →
    Only round [] ∧ Permitted round domain ∧ Expiring round domain
  announces : ∀ token keyAuth, op = .addChallenge token keyAuth → InOrder round token keyAuth
  saves : ∀ certificate, op = .saveCertificate certificate → Earned round certificate

/-- Calls that need nothing and announce no token. -/
def Calm : CertOp lib → Prop
  | .select _ _ | .insertCached _ _ | .newOrder _ | .addChallenge _ _ | .saveCertificate _ => False
  | _ => True

section Rounds

variable {round : Log lib}

theorem calm_paced {op : CertOp lib} (calm : Calm op) : Paced round op where
  working := by
    cases op with
    | select receives renews => exact calm
    | insertCached domain entry => exact calm
    | _ => trivial
  orders := by
    rintro _ rfl
    exact absurd calm id
  announces := by
    rintro _ _ rfl
    exact absurd calm id
  saves := by
    rintro _ rfl
    exact absurd calm id

theorem calm_quiet {op : CertOp lib} (calm : Calm op) : ¬Selecting op ∧ ¬Ordering op := by
  constructor
  · rintro ⟨_, _, rfl⟩
    exact calm
  · rintro ⟨_, rfl⟩
    exact calm

theorem Only.call {tokens : List String} (only : Only round tokens) {op : CertOp lib}
    (silent : ∀ token keyAuth, op ≠ .addChallenge token keyAuth) (answer : op.Answer) :
    Only (round ++ [⟨op, answer⟩]) tokens := by
  apply only.quiet
  intro call member
  rw [List.mem_singleton.mp member]
  exact silent

variable {tokens : List String}

theorem Only.calm (only : Only round tokens) (op : CertOp lib) (calm : Calm op) (answer : op.Answer)
    : Only (round ++ [⟨op, answer⟩]) tokens := by
  apply only.call
  rintro _ _ rfl
  exact calm

theorem Followed.append {first second : Call (CertFace lib)} (followed : Followed round first second)
    (new : Log lib) : Followed (round ++ new) first second := by
  obtain ⟨front, middle, back, split⟩ := followed
  exact ⟨front, middle, back ++ new, by rw [split]; simp⟩

theorem followed_of_mem {first : Call (CertFace lib)} (member : first ∈ round)
    (second : Call (CertFace lib)) : Followed (round ++ [second]) first second := by
  obtain ⟨front, back, split⟩ := List.append_of_mem member
  exact ⟨front, back, [], by rw [split]⟩

variable {domain : String}

theorem Permitted.append (permitted : Permitted round domain) (new : Log lib) :
    Permitted (round ++ new) domain := by
  rcases permitted with ⟨app, found⟩ | ⟨hosts, read, managed⟩ | ⟨hosts, apps, read, listed⟩
  · exact Or.inl ⟨app, List.mem_append_left _ found⟩
  · exact Or.inr (Or.inl ⟨hosts, List.mem_append_left _ read, managed⟩)
  · exact Or.inr (Or.inr ⟨hosts, apps, read.append new, listed⟩)

theorem Expiring.append (expiring : Expiring round domain) (new : Log lib) :
    Expiring (round ++ new) domain := by
  rcases expiring with absent | ⟨stored, now, read, ends⟩
  · exact Or.inl (List.mem_append_left _ absent)
  · exact Or.inr ⟨stored, now, read.append new, ends⟩

theorem Issued.subset {other : Log lib} {certPem keyPem : String}
    (issued : Issued round domain certPem keyPem) (kept : ∀ call ∈ round, call ∈ other) :
    Issued other domain certPem keyPem := by
  obtain ⟨order, count, ordered, finalized, downloaded⟩ := issued
  exact ⟨order, count, kept _ ordered, kept _ finalized, kept _ downloaded⟩

theorem Earned.subset {other : Log lib} {certificate : Certificate}
    (earned : Earned round certificate) (kept : ∀ call ∈ round, call ∈ other) :
    Earned other certificate := by
  rcases earned with issued | ⟨domain, stored, found, corrected⟩
  · exact Or.inl (issued.subset kept)
  · exact Or.inr ⟨domain, stored, kept _ found, corrected⟩

def Goes (round made : Log lib) (tokens : List String) : Prop :=
  (∃ new, made = round ++ new) ∧ Only made tokens

variable {made : Log lib}

theorem Goes.trans {more : Log lib} {others : List String} (first : Goes round made tokens)
    (second : Goes made more others) : Goes round more others := by
  obtain ⟨⟨new, grown⟩, -⟩ := first
  obtain ⟨⟨newer, grownMore⟩, only⟩ := second
  exact ⟨⟨new ++ newer, by rw [grownMore, grown, List.append_assoc]⟩, only⟩

theorem Goes.calm (goes : Goes round made tokens) (op : CertOp lib) (calm : Calm op)
    (answer : op.Answer) : Goes round (made ++ [⟨op, answer⟩]) tokens := by
  obtain ⟨⟨new, grown⟩, only⟩ := goes
  exact ⟨⟨_, by rw [grown, List.append_assoc]⟩, only.calm op calm answer⟩

theorem goes_start (only : Only round tokens) : Goes round round tokens :=
  ⟨⟨[], by simp⟩, only⟩

theorem calm_goes {Value : Type} {program : Prog lib Value} (calls : program.Calls Calm)
    (only : Only round tokens) :
    program.Always Recording Paced (fun _ made => ∃ new, made = round ++ new ∧
      Only made tokens ∧ ∀ call ∈ new, ¬Selecting call.1 ∧ ¬Ordering call.1) round := by
  have under : program.Under (fun _ _ => True) Calm fun _ => True := calls.under
  apply (under.recorded (fun _ _ calm => calm_paced calm) round).mono
  rintro _ made ⟨-, new, grown, calm⟩
  refine ⟨new, grown, ?_, fun call member => calm_quiet (calm call member)⟩
  rw [grown]
  apply only.quiet
  rintro call member token keyAuth same
  have isCalm := calm call member
  rw [same] at isCalm
  exact isCalm

theorem remove_challenges_goes (tokens : List String) (only : Only round tokens) :
    (removeChallenges tokens).Always Recording Paced (fun _ made => Goes round made []) round := by
  induction tokens generalizing round with
  | nil => exact always_pure.mpr (goes_start only)
  | cons token tokens ih =>
      apply always_bind.mpr
      apply recorded_call (@calm_paced lib round (.removeChallenge token) trivial)
      intro _
      apply (ih only.removed).mono
      rintro _ made ⟨⟨new, grown⟩, none⟩
      exact ⟨⟨⟨.removeChallenge token, ()⟩ :: new, by rw [grown, List.append_assoc]; rfl⟩, none⟩

def Underway (round : Log lib) (call : Call (CertFace lib)) (made : Log lib)
    (tokens : List String) : Prop :=
  ∃ rest, made = round ++ call :: rest ∧ Only made tokens ∧
    ∀ later ∈ rest, ¬Selecting later.1 ∧ ¬Ordering later.1

theorem Underway.goes {call : Call (CertFace lib)} (underway : Underway round call made tokens) :
    Goes round made tokens := by
  obtain ⟨rest, split, only, -⟩ := underway
  exact ⟨⟨_, split⟩, only⟩

theorem Underway.append {call : Call (CertFace lib)} {new : Log lib} {others : List String}
    (underway : Underway round call made tokens) (only : Only (made ++ new) others)
    (quiet : ∀ later ∈ new, ¬Selecting later.1 ∧ ¬Ordering later.1) :
    Underway round call (made ++ new) others := by
  obtain ⟨rest, split, -, before⟩ := underway
  refine ⟨rest ++ new, by rw [split, List.append_assoc]; rfl, only, ?_⟩
  intro later member
  rcases List.mem_append.mp member with old | late
  · exact before later old
  · exact quiet later late

theorem Underway.calm {Value : Type} {program : Prog lib Value} (calls : program.Calls Calm)
    {call : Call (CertFace lib)} (underway : Underway round call made tokens) :
    program.Always Recording Paced (fun _ more => Underway round call more tokens) made := by
  have only := underway.goes.2
  apply (calm_goes calls only).mono
  rintro _ more ⟨new, rfl, onlyMore, quiet⟩
  exact underway.append onlyMore quiet

section Order

variable {domain : String} {order : Order} {count : Nat} {made : Log lib} {tokens : List String}

theorem announce_goes (index : Nat)
    (underway : Underway round ⟨.newOrder domain, .ok (order, count)⟩ made tokens) :
    (announce order tokens index).Always Recording Paced (fun result more =>
      Underway round ⟨.newOrder domain, .ok (order, count)⟩ more result.2) made := by
  have asks : ∀ answer, Underway round ⟨.newOrder domain, .ok (order, count)⟩
      (made ++ [⟨.authorization order index, answer⟩]) tokens := by
    intro answer
    apply underway.append
    · exact underway.goes.2.calm (.authorization order index) trivial answer
    · intro later member
      rw [List.mem_singleton.mp member]
      exact calm_quiet trivial
  apply always_bind.mpr
  apply recorded_call (@calm_paced lib made (.authorization order index) trivial)
  intro answer
  cases answer with
  | error error => exact always_pure.mpr (asks _)
  | ok authorization =>
      cases authorization with
      | valid => exact always_pure.mpr (asks _)
      | pending challenge =>
          cases challenge with
          | none => exact always_pure.mpr (asks _)
          | some offered =>
              obtain ⟨token, keyAuth⟩ := offered
              obtain ⟨rest, split, only, quiet⟩ := asks (.ok (.pending (some (token, keyAuth))))
              apply always_bind.mpr
              apply recorded_call
              · refine ⟨trivial, ?_, ?_, ?_⟩
                · intro _ absurd
                  cases absurd
                · intro _ _ same
                  cases same
                  obtain ⟨ordered, whole, -, -⟩ := underway
                  have inRest : rest = ordered ++
                      [⟨.authorization order index, .ok (.pending (some (token, keyAuth)))⟩] := by
                    rw [whole, List.append_assoc, List.cons_append] at split
                    exact ((List.cons.inj (List.append_cancel_left split)).2).symm
                  refine ⟨round, domain, order, count, rest, split, quiet, index, ?_⟩
                  rw [inRest]
                  exact List.mem_concat_self
                · intro _ absurd
                  cases absurd
              · intro _
                have added : Underway round ⟨.newOrder domain, .ok (order, count)⟩
                    ((made ++ [⟨.authorization order index, .ok (.pending (some (token, keyAuth)))⟩])
                      ++ [⟨.addChallenge token keyAuth, ()⟩]) (tokens ++ [token]) := by
                  apply (asks _).append (only.added token keyAuth)
                  intro later member
                  rw [List.mem_singleton.mp member]
                  constructor
                  · rintro ⟨_, _, absurd⟩
                    cases absurd
                  · rintro ⟨_, absurd⟩
                    cases absurd
                have readies : (@ask lib (.setReady order token)).Calls Calm :=
                  calls_perform trivial
                apply (added.calm readies).bind
                intro ready more reached
                exact always_pure.mpr reached

theorem await_status_calm (wanted : OrderStatus) (timeout : String) (remaining : Nat) :
    (awaitStatus order wanted timeout remaining : Fallible lib Unit).run.Calls Calm := by
  induction remaining with
  | zero => exact calls_run_throw _
  | succ remaining ih =>
      apply Calls.run_bind (calls_perform trivial)
      intro status
      split
      · exact calls_run_pure _
      · split
        · exact calls_run_throw _
        · exact ih

theorem complete_issuance_calm : (completeIssuance order : Fallible lib (String × String)).run.Calls
    Calm := by
  apply Calls.run_bind (await_status_calm _ _ _)
  intro _
  apply Calls.run_bind (calls_perform trivial)
  intro key
  apply Calls.run_bind (await_status_calm _ _ _)
  intro _
  apply Calls.run_bind (calls_perform trivial)
  intro chain
  cases chain with
  | none => exact calls_run_throw _
  | some chain => exact calls_run_pure _

theorem await_status_leaves (wanted : OrderStatus) (timeout : String) (remaining : Nat) :
    Leaves Paced (awaitStatus order wanted timeout remaining : Fallible lib Unit) made
      fun _ more => ∃ new, more = made ++ new := by
  apply (under_leaves (await_status_calm wanted timeout remaining).under_ok
    (fun _ _ calm => calm_paced calm) made).mono
  intro result more left value same
  obtain ⟨-, new, grown, -⟩ := left value same
  exact ⟨new, grown⟩

theorem complete_issuance_leaves :
    Leaves Paced (completeIssuance order : Fallible lib (String × String)) made
      fun pair more => ⟨.finalize order, .ok pair.2⟩ ∈ more ∧
        ⟨.downloadCertificate order, .ok (some pair.1)⟩ ∈ more := by
  apply leaves_chain (await_status_leaves _ _ _)
  rintro _ ready -
  apply always_run_bind.mpr
  apply recorded_call (@calm_paced lib ready (.finalize order) trivial)
  intro finalized
  cases finalized with
  | error error => exact fun _ absurd => by cases absurd
  | ok key =>
      apply leaves_chain (await_status_leaves _ _ _)
      rintro _ valid ⟨new, grown⟩
      apply always_run_bind.mpr
      apply recorded_call (@calm_paced lib valid (.downloadCertificate order) trivial)
      intro downloaded
      cases downloaded with
      | error error => exact fun _ absurd => by cases absurd
      | ok chain =>
          cases chain with
          | none => exact leaves_throw _
          | some chain =>
              apply leaves_return
              refine ⟨List.mem_append_left _ ?_, List.mem_concat_self⟩
              rw [grown]
              exact List.mem_append_left _ List.mem_concat_self

end Order

section Issuing

variable {domain : String} {tokens : List String}

theorem complete_order_goes (only : Only round []) (permitted : Permitted round domain)
    (expiring : Expiring round domain) :
    (completeOrder domain).Always Recording Paced (fun result made => Goes round made result.2 ∧
      ∀ pair, result.1 = .ok pair → Issued made domain pair.1 pair.2) round := by
  apply always_bind.mpr
  apply recorded_call
  · refine ⟨trivial, ?_, ?_, ?_⟩
    · intro _ same
      cases same
      exact ⟨only, permitted, expiring⟩
    · intro _ _ absurd
      cases absurd
    · intro _ absurd
      cases absurd
  intro answer
  have onlyThen : Only (round ++ [⟨.newOrder domain, answer⟩]) [] := by
    apply only.call
    intro token keyAuth absurd
    cases absurd
  cases answer with
  | error error =>
      apply always_pure.mpr
      exact ⟨⟨⟨_, rfl⟩, onlyThen⟩, fun _ absurd => by cases absurd⟩
  | ok ordered =>
      obtain ⟨order, count⟩ := ordered
      have start : Underway round ⟨.newOrder domain, .ok (order, count)⟩
          (round ++ [⟨.newOrder domain, .ok (order, count)⟩]) [] :=
        ⟨[], rfl, onlyThen, fun _ member => absurd member List.not_mem_nil⟩
      apply always_bind.mpr
      apply always_iterate (fun _ acc made =>
        Underway round ⟨.newOrder domain, .ok (order, count)⟩ made acc) _ [] _ _ start
      · intro acc made underway
        have known : ⟨.newOrder domain, .ok (order, count)⟩ ∈ made := by
          obtain ⟨rest, split, -, -⟩ := underway
          rw [split]
          exact List.mem_append_right _ List.mem_cons_self
        apply (complete_issuance_leaves.and (underway.calm complete_issuance_calm).made).bind
        rintro result more ⟨left, reached, new, grown, -⟩
        apply always_pure.mpr
        refine ⟨reached.goes, fun pair same => ?_⟩
        obtain ⟨finalized, downloaded⟩ := left pair same
        refine ⟨order, count, ?_, finalized, downloaded⟩
        rw [grown]
        exact List.mem_append_left _ known
      · intro before index after acc made _ underway
        apply (announce_goes index underway).mono
        rintro ⟨result, acc⟩ more reached
        cases result with
        | ok _ => exact reached
        | error error =>
            apply always_pure.mpr
            exact ⟨reached.goes, fun _ absurd => by cases absurd⟩

def Keeping (made : Log lib) (op : CertOp lib) : Prop :=
  Calm op ∨ ∃ certificate, op = .saveCertificate certificate ∧
    ∀ new, Earned (made ++ new) certificate

theorem keeping_paced {made new : Log lib} {op : CertOp lib} (keeping : Keeping made op) :
    Paced (made ++ new) op := by
  rcases keeping with calm | ⟨certificate, rfl, earned⟩
  · exact calm_paced calm
  · refine ⟨trivial, ?_, ?_, ?_⟩
    · intro _ absurd
      cases absurd
    · intro _ _ absurd
      cases absurd
    · intro _ same
      cases same
      exact earned new

theorem keeping_goes {Value : Type} {program : Prog lib Value} {made : Log lib}
    (calls : program.Calls (Keeping made)) (goes : Goes round made []) :
    program.Always Recording Paced (fun _ more => Goes round more [] ∧
      ∃ new, more = made ++ new) made := by
  have under : program.Under (fun _ _ => True) (Keeping made) fun _ => True := calls.under
  have behind := under.recorded (fun new _ keeping => @keeping_paced lib made new _ keeping) []
  have whole : made = made ++ [] := (List.append_nil made).symm
  rw [whole]
  apply Always.behind made
  apply behind.mono
  rintro _ made' ⟨-, new, grown, keeping⟩
  rw [List.nil_append] at grown
  rw [grown, List.append_nil]
  obtain ⟨⟨earlier, split⟩, only⟩ := goes
  refine ⟨⟨⟨earlier ++ new, by rw [split, List.append_assoc]⟩, ?_⟩, new, rfl⟩
  apply only.quiet
  rintro call member token keyAuth same
  rcases keeping call member with calm | ⟨_, isSave, -⟩
  · rw [same] at calm
    exact calm
  · rw [same] at isSave
    cases isSave

theorem issued_expiry_keeping {made : Log lib} (certChain : String) :
    (issuedExpiry certChain).Calls (Keeping made) := by
  unfold issuedExpiry
  split
  · exact calls_pure _
  · apply Calls.bind (calls_perform (Or.inl trivial))
    exact fun _ => calls_pure _

theorem request_certificate_goes (only : Only round []) (permitted : Permitted round domain)
    (expiring : Expiring round domain) :
    (requestCertificate domain).run.Always Recording Paced (fun _ made => Goes round made [])
      round := by
  apply always_run_bind.mpr
  apply recorded_call (@calm_paced lib round .getOrCreateAccount trivial)
  intro account
  have onlyThen : Only (round ++ [⟨.getOrCreateAccount, account⟩]) [] :=
    only.calm .getOrCreateAccount trivial account
  cases account with
  | error error => exact ⟨⟨_, rfl⟩, onlyThen⟩
  | ok _ =>
      apply (complete_order_goes onlyThen (permitted.append _) (expiring.append _)).run_lift_bind
      rintro ⟨issued, tokens⟩ made ⟨⟨⟨new, grown⟩, left⟩, earned⟩
      apply (remove_challenges_goes tokens left).run_lift_bind
      rintro _ cleared ⟨removed, none⟩
      have goes : Goes round cleared [] := by
        obtain ⟨more, split⟩ := removed
        refine ⟨⟨[⟨.getOrCreateAccount, .ok ()⟩] ++ new ++ more, ?_⟩, none⟩
        rw [split, grown]
        simp
      cases issued with
      | error error => exact always_run_throw.mpr goes
      | ok pair =>
          obtain ⟨certChain, privateKeyPem⟩ := pair
          have kept : Issued cleared domain certChain privateKeyPem := by
            obtain ⟨more, split⟩ := removed
            apply (earned _ rfl).subset
            intro call member
            rw [split]
            exact List.mem_append_left _ member
          refine Always.mono (keeping_goes ?_ goes) fun _ _ held => held.1
          apply Calls.run_lift_bind (issued_expiry_keeping certChain)
          intro expiresAt
          apply Calls.run_lift_bind (calls_perform (Or.inl trivial))
          intro id
          apply Calls.run_lift_bind (calls_perform (Or.inl trivial))
          intro createdAt
          apply Calls.run_bind (calls_perform (Or.inl trivial))
          intro existing
          apply Calls.run_bind
          · apply calls_perform
            refine Or.inr ⟨_, rfl, fun new => Or.inl (kept.subset ?_)⟩
            exact fun call member => List.mem_append_left _ member
          · exact fun _ => calls_run_pure _

theorem correct_expiry_keeping {made : Log lib} {stored : Certificate}
    (read : ⟨.getCertificateByDomain domain, .ok (some stored)⟩ ∈ made) :
    (correctExpiry stored).run.Calls (Keeping made) := by
  unfold correctExpiry
  split
  · rename_i expiresAt parsed
    split
    · apply Calls.run_bind
      · apply calls_perform
        refine Or.inr ⟨_, rfl, fun new => Or.inr ⟨domain, stored, ?_, ?_⟩⟩
        · exact List.mem_append_left _ read
        · unfold trueExpiry
          rw [parsed]
          rfl
      · exact fun _ => calls_run_pure _
    · exact calls_run_pure _
  · exact calls_run_pure _

theorem correct_expiry_yields (stored : Certificate) :
    (correctExpiry stored : Fallible lib Certificate).run.Under (fun _ _ => True) (fun _ => True)
      (OnOk fun certificate => certificate.expiresAt = trueExpiry lib stored) := by
  unfold correctExpiry trueExpiry
  split
  · rename_i expiresAt parsed
    rw [parsed]
    split
    · apply under_chain (calls_anything _).under_ok
      exact fun _ _ => under_return rfl
    · rename_i same
      exact under_return (not_not.mp same)
  · rename_i unreadable
    rw [unreadable]
    exact under_return rfl

theorem ensure_certificate_goes (only : Only round []) (permitted : Permitted round domain) :
    (ensureCertificate domain).run.Always Recording Paced (fun _ made => Goes round made [])
      round := by
  apply always_run_bind.mpr
  apply recorded_call (@calm_paced lib round (.getCertificateByDomain domain) trivial)
  intro answer
  have goes : Goes round (round ++ [⟨.getCertificateByDomain domain, answer⟩]) [] :=
    (goes_start only).calm (.getCertificateByDomain domain) trivial answer
  have read : ⟨.getCertificateByDomain domain, answer⟩ ∈
      round ++ [⟨.getCertificateByDomain domain, answer⟩] :=
    List.mem_concat_self
  cases answer with
  | error error => exact goes
  | ok found =>
      cases found with
      | none =>
          apply (request_certificate_goes goes.2 (permitted.append _) (Or.inl read)).mono
          exact fun _ _ further => goes.trans further
      | some stored =>
          apply ((keeping_goes (correct_expiry_keeping read) goes).with_under
            (correct_expiry_yields stored)).run_bind
          rintro result made ⟨⟨corrected, new, grown⟩, judged⟩
          cases result with
          | error error => exact corrected
          | ok certificate =>
              have readThen : ⟨.getCertificateByDomain domain, .ok (some stored)⟩ ∈ made := by
                rw [grown]
                exact List.mem_append_left _ read
              apply always_run_lift_bind.mpr
              apply recorded_call (@calm_paced lib made .utcNow trivial)
              intro now
              have clocked : Goes made (made ++ [⟨.utcNow, now⟩]) [] :=
                (goes_start corrected.2).calm .utcNow trivial now
              split
              · exact always_run_pure.mpr (corrected.trans clocked)
              · rename_i ends
                have expiring : Expiring (made ++ [⟨.utcNow, now⟩]) domain := by
                  refine Or.inr ⟨stored, now, followed_of_mem readThen _, ?_⟩
                  rw [← judged]
                  exact Nat.le_of_not_lt ends
                have still : Permitted (made ++ [⟨.utcNow, now⟩]) domain := by
                  obtain ⟨⟨more, split⟩, -⟩ := corrected
                  rw [split]
                  exact (permitted.append _).append _
                apply (request_certificate_goes clocked.2 still expiring).mono
                exact fun _ _ further => (corrected.trans clocked).trans further

end Issuing

section Task

variable {domain : String}

theorem renew_all_goes {hosts : Hosts} {apps : List App} {domains : List String}
    (listed : ∀ domain ∈ domains, domain ∈ managedDomains lib hosts apps)
    (read : Followed round ⟨.readConfig, hosts⟩ ⟨.listApps, .ok apps⟩) (only : Only round []) :
    (renewAll lib domains).Always Recording Paced (fun _ made => Goes round made []) round := by
  apply always_for_all (fun _ made => Goes round made []) domains []
  · exact goes_start only
  · exact fun made goes => goes
  · rintro before domain after made split ⟨⟨new, rfl⟩, onlyThen⟩
    have member : domain ∈ domains := by
      rw [split]
      exact List.mem_append_right _ List.mem_cons_self
    have permitted : Permitted (round ++ new) domain :=
      Or.inr (Or.inr ⟨hosts, apps, read.append new, listed domain member⟩)
    apply (ensure_certificate_goes onlyThen permitted).bind
    intro _ made further
    exact always_pure.mpr (Goes.trans ⟨⟨new, rfl⟩, onlyThen⟩ further)

theorem renew_managed_certificates_goes (only : Only round []) :
    (renewManagedCertificates.run : Prog lib _).Always Recording Paced
      (fun _ made => Goes round made []) round := by
  apply always_run_bind.mpr
  apply always_run_lift_bind.mpr
  apply recorded_call (@calm_paced lib round .readConfig trivial)
  intro hosts
  apply always_run_bind.mpr
  apply recorded_call (@calm_paced lib _ .listApps trivial)
  intro answer
  have goes : Goes round ((round ++ [⟨.readConfig, hosts⟩]) ++ [⟨.listApps, answer⟩]) [] :=
    ((goes_start only).calm .readConfig trivial hosts).calm .listApps trivial answer
  cases answer with
  | error error => exact goes
  | ok apps =>
      apply always_run_pure.mpr
      have read : Followed ((round ++ [⟨.readConfig, hosts⟩]) ++ [⟨.listApps, .ok apps⟩])
          ⟨.readConfig, hosts⟩ ⟨.listApps, .ok apps⟩ :=
        followed_of_mem List.mem_concat_self _
      apply always_run_lift.mpr
      apply (renew_all_goes (fun _ member => member) read goes.2).mono
      exact fun _ _ further => goes.trans further

theorem issuance_allowed_goes (only : Only round []) :
    (issuanceAllowed domain).Always Recording Paced (fun allowed made => Goes round made [] ∧
      (allowed = true → Permitted made domain)) round := by
  have asked : ∀ answer, Goes round (round ++ [⟨.getAppByDomain domain, answer⟩]) [] :=
    fun answer => (goes_start only).calm (.getAppByDomain domain) trivial answer
  apply always_bind.mpr
  apply recorded_call (@calm_paced lib round (.getAppByDomain domain) trivial)
  intro answer
  cases answer with
  | error error => exact always_pure.mpr ⟨asked _, fun absurd => by cases absurd⟩
  | ok found =>
      cases found with
      | some app =>
          apply always_pure.mpr
          exact ⟨asked _, fun _ => Or.inl ⟨app, List.mem_concat_self⟩⟩
      | none =>
          apply always_bind.mpr
          apply recorded_call (@calm_paced lib _ .readConfig trivial)
          intro hosts
          apply always_pure.mpr
          refine ⟨(asked (.ok none)).calm .readConfig trivial hosts, fun managed => Or.inr (Or.inl ?_)⟩
          exact ⟨hosts, List.mem_concat_self, managed⟩

theorem handle_request_goes (enabled : Bool) (issuer : Issuer) (only : Only round []) :
    (handleRequest enabled issuer domain).Always Recording Paced (fun _ made => Goes round made [])
      round := by
  have stays : Goes round round [] := goes_start only
  unfold handleRequest
  split
  · exact always_pure.mpr stays
  · apply (issuance_allowed_goes only).bind
    rintro allowed made ⟨goes, permitted⟩
    split
    · exact always_pure.mpr goes
    · rename_i isAllowed
      split
      · exact always_pure.mpr goes
      · apply (ensure_certificate_goes goes.2 (permitted (by simpa using isAllowed))).bind
        intro _ more further
        exact always_pure.mpr (goes.trans further)

def Rounds (calls : Log lib) (op : CertOp lib) : Prop :=
  ∃ front round, calls = front ++ round ∧ Only front [] ∧
    (∀ call ∈ round, ¬Selecting call.1) ∧
    (Paced round op ∨ Selecting op ∧ Only round [])

theorem round_behind {Value : Type} {program : Prog lib Value} {front : Log lib}
    (start : Only front [])
    (always : program.Always Recording Paced (fun _ made => Goes [] made []) []) :
    program.Always Recording Rounds (fun _ calls => Only calls []) front := by
  have guarded := @Always.guard _ _ _ _ _ _ _ _ (fun round => ∀ call ∈ round, ¬Selecting call.1)
    always
    (by
      rintro op before answer after paced quiet rfl call member
      rcases List.mem_append.mp member with old | new
      · exact quiet call old
      · rw [List.mem_singleton.mp new]
        rintro ⟨_, _, rfl⟩
        exact paced.working)
    (List.forall_mem_nil _)
  have whole : front = front ++ [] := (List.append_nil front).symm
  rw [whole]
  apply Always.behind front
  have ruled := guarded.restrict (fun _ _ _ _ possible => possible)
    (fun round op (held : Paced round op ∧ _) =>
      (⟨front, round, rfl, start, held.2, Or.inl held.1⟩ : Rounds (front ++ round) op))
  apply ruled.mono
  rintro _ round ⟨goes, -⟩
  exact start.append goes.2

theorem issue_loop_rounds (enabled : Bool) (rounds : Nat) (issuer : Issuer) {calls : Log lib}
    (only : Only calls []) :
    (issueLoop enabled rounds issuer).Always Recording Rounds (fun _ _ => True) calls := by
  induction rounds generalizing issuer calls with
  | zero => exact always_pure.mpr trivial
  | succ rounds ih =>
      apply always_bind.mpr
      apply recorded_call
      · refine ⟨calls, [], by simp, only, ?_, Or.inr ⟨⟨_, _, rfl⟩, only_nil⟩⟩
        exact List.forall_mem_nil _
      intro wake
      have onlyThen : Only (calls ++ [⟨.select (!issuer.requestsClosed) enabled, wake⟩]) [] := by
        apply only.call
        intro token keyAuth absurd
        cases absurd
      cases wake with
      | request received =>
          cases received with
          | none =>
              cases enabled with
              | true => exact ih _ onlyThen
              | false => exact always_pure.mpr trivial
          | some domain =>
              apply (round_behind onlyThen (handle_request_goes enabled issuer only_nil)).bind
              exact fun next _ onlyNext => ih next onlyNext
      | tick =>
          apply (round_behind onlyThen (renew_managed_certificates_goes only_nil)).bind
          exact fun _ _ onlyNext => ih issuer onlyNext

theorem certificate_task_rounds (enabled : Bool) (rounds : Nat) :
    (certificateTask enabled rounds : Prog lib Unit).Always Recording Rounds (fun _ _ => True)
      [] := by
  cases enabled with
  | false => exact issue_loop_rounds false rounds _ only_nil
  | true =>
      apply (round_behind only_nil (renew_managed_certificates_goes only_nil)).bind
      exact fun _ _ onlyNext => issue_loop_rounds true rounds _ onlyNext

end Task

end Rounds

end Containr.Tls
