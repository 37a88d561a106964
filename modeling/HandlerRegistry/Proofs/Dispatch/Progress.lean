import HandlerRegistry.Proofs.Dispatch.Accounting
import HandlerRegistry.Proofs.Dispatch.Schemes
import Mathlib.Algebra.Ring.Nat

/-! # The progress of a request

A request saturates its count at each arrival. This comes to saturating the exact sum of all arrivals
once, so neither their order nor the totals set between them matter to the count, and the total is the
last that is set (`progress_saturates_once`). In a session nothing else happens to a request, however
many handlers are called, until the caller replaces it (`request_run`). -/

namespace HandlerRegistry.Dispatch
set_option autoImplicit false

namespace Request

/-! ## Updates -/

/-- A change of a request that is under way. -/
inductive Update where
  | advance (bytes : UInt64)
  | setTotal (total : UInt64)
deriving DecidableEq, Repr

namespace Update

def bytes? : Update → Option UInt64
  | .advance bytes => some bytes
  | .setTotal _ => none

def total? : Update → Option UInt64
  | .advance _ => none
  | .setTotal total => some total

end Update

def update (request : Request) : Update → Request
  | .advance bytes => request.advance bytes
  | .setTotal total => request.setTotal total

def updateAll (request : Request) (updates : List Update) : Request :=
  updates.foldl update request

/-- The number of bytes that arrive in the course of updates, with no limit to it. -/
def arrived (updates : List Update) : Nat :=
  ((updates.filterMap Update.bytes?).map UInt64.toNat).sum

variable {request : Request} {updates others : List Update}

theorem updateAll_cons (request : Request) (first : Update) (rest : List Update) :
    request.updateAll (first :: rest) = (request.update first).updateAll rest := rfl

theorem updateAll_append (request : Request) (before after : List Update) :
    request.updateAll (before ++ after) = (request.updateAll before).updateAll after :=
  List.foldl_append

theorem arrived_append (before after : List Update) :
    arrived (before ++ after) = arrived before + arrived after := by
  simp [arrived]

/-! ## The count -/

theorem received_le_max (request : Request) : request.received.toNat ≤ maxReceived := by
  have h := request.received.toNat_lt
  unfold maxReceived UInt64.size
  omega

theorem toNat_received_update (request : Request) (first : Update) :
    (request.update first).received.toNat =
      min maxReceived (request.received.toNat + arrived [first]) := by
  cases first with
  | advance bytes => simpa [update, arrived, Update.bytes?] using request.toNat_advance bytes
  | setTotal total => exact (Nat.min_eq_right request.received_le_max).symm

theorem toNat_received_updateAll (request : Request) (updates : List Update) :
    (request.updateAll updates).received.toNat =
      min maxReceived (request.received.toNat + arrived updates) := by
  induction updates generalizing request with
  | nil => exact (Nat.min_eq_right request.received_le_max).symm
  | cons first rest ih =>
    have hs : arrived (first :: rest) = arrived [first] + arrived rest :=
      arrived_append [first] rest
    rw [updateAll_cons, ih, toNat_received_update, hs]
    -- a count that is cut off here stays at its maximum, and the sum stays above it
    omega

theorem received_le_updateAll (request : Request) (updates : List Update) :
    request.received ≤ (request.updateAll updates).received := by
  have h := request.received_le_max
  rw [UInt64.le_iff_toNat_le, toNat_received_updateAll]
  omega

theorem received_updateAll_perm
    (h : (updates.filterMap Update.bytes?).Perm (others.filterMap Update.bytes?)) :
    (request.updateAll others).received = (request.updateAll updates).received := by
  have hs : arrived updates = arrived others := (h.map UInt64.toNat).sum_nat
  rw [← UInt64.toNat_inj, toNat_received_updateAll, toNat_received_updateAll, hs]

/-! ## The total and the URL -/

theorem total_updateAll (request : Request) (updates : List Update) :
    (request.updateAll updates).total =
      (updates.filterMap Update.total?).getLast?.or request.total := by
  induction updates generalizing request with
  | nil => rfl
  | cons first rest ih =>
    rw [updateAll_cons, ih]
    cases first with
    | advance bytes => rfl
    | setTotal total =>
      have hf : (Update.setTotal total :: rest).filterMap Update.total? =
          [total] ++ rest.filterMap Update.total? := rfl
      rw [hf, List.getLast?_append, Option.or_assoc]
      rfl

theorem url_updateAll (request : Request) (updates : List Update) :
    (request.updateAll updates).url = request.url := by
  induction updates generalizing request with
  | nil => rfl
  | cons first rest ih =>
    rw [updateAll_cons, ih]
    cases first <;> rfl

end Request

/-! ## Requests in a session -/

/-- The change that a step makes to the request, if it makes one. -/
def Session.Step.update? : Session.Step → Option Request.Update
  | .advance bytes => some (.advance bytes)
  | .setTotal total => some (.setTotal total)
  | _ => none

/-- Whether a step leaves the request in its place. -/
def Session.Step.keepsRequest : Session.Step → Bool
  | .request _ | .restore => false
  | _ => true

namespace Session

theorem request_step (session : Session) {step : Step} (kept : step.keepsRequest = true) :
    (session.step step).2.call.request = session.call.request.updateAll step.update?.toList := by
  cases step with
  | call name =>
    obtain ⟨data, hd⟩ := session.exists_step_call_eq name
    rw [hd]
    rfl
  | request | restore => cases kept
  | advance | setTotal | save | compare | stop | options | data => rfl

theorem request_run (session : Session) {steps : List Step}
    (kept : ∀ step ∈ steps, step.keepsRequest = true) :
    (session.run steps).2.call.request =
      session.call.request.updateAll (steps.filterMap Step.update?) := by
  induction steps generalizing session with
  | nil => rfl
  | cons step rest ih =>
    obtain ⟨hk, hr⟩ := List.forall_mem_cons.mp kept
    have hf : (step :: rest).filterMap Step.update? =
        step.update?.toList ++ rest.filterMap Step.update? := by
      cases hu : step.update? <;> simp [hu]
    rw [hf, Request.updateAll_append, ← session.request_step hk]
    exact ih _ hr

end Session

/-! ## Progress -/

namespace Request

/-- What a request is after some changes. -/
structure Progress (request : Request) (updates : List Update) : Prop where
  /-- The count is the exact sum, cut off once. -/
  received : (request.updateAll updates).received.toNat =
    min (2 ^ 64 - 1) (request.received.toNat + arrived updates)
  growing : ∀ earlier, earlier <+: updates →
    (request.updateAll earlier).received ≤ (request.updateAll updates).received
  /-- The order of the arrivals makes no difference to the count. -/
  order_free : ∀ others,
    (updates.filterMap Update.bytes?).Perm (others.filterMap Update.bytes?) →
      (request.updateAll others).received = (request.updateAll updates).received
  total : (request.updateAll updates).total =
    (updates.filterMap Update.total?).getLast?.or request.total
  url : (request.updateAll updates).url = request.url
  scheme : (request.updateAll updates).scheme? = request.scheme?
  /-- One more arrival anywhere leaves the total. -/
  total_of_advance : ∀ before after, updates = before ++ after → ∀ bytes,
    (request.updateAll (before ++ .advance bytes :: after)).total =
      (request.updateAll updates).total
  /-- One more setting of the total anywhere leaves the count. -/
  received_of_setTotal : ∀ before after, updates = before ++ after → ∀ total,
    (request.updateAll (before ++ .setTotal total :: after)).received =
      (request.updateAll updates).received
  /-- The same changes in a session make the same request. -/
  in_session : ∀ (session : Session) (steps : List Session.Step), session.call.request = request →
    (∀ step ∈ steps, step.keepsRequest = true) →
      steps.filterMap Session.Step.update? = updates →
        (session.run steps).2.call.request = request.updateAll updates

/-- After any arrivals and settings of the total, in any order, the count is the exact sum, cut off
once at the greatest number of 64 bits. It never goes down on the way and depends on the arrivals but
not on their order. The total is the last that was set, or else the one at the start, and the URL with
its scheme stays. An arrival more or less makes no difference to the total, nor a setting of the total
to the count. All this holds of the request in a session as well, whatever else its caller does there,
as long as the request is not replaced. -/
theorem progress_saturates_once (request : Request) (updates : List Update) :
    Progress request updates where
  received := request.toNat_received_updateAll updates
  growing := by
    rintro earlier ⟨later, rfl⟩
    rw [updateAll_append]
    exact received_le_updateAll _ later
  order_free _ := received_updateAll_perm
  total := request.total_updateAll updates
  url := request.url_updateAll updates
  scheme := scheme?_congr (request.url_updateAll updates)
  total_of_advance := by
    rintro before after rfl bytes
    simp [total_updateAll, Update.total?]
  received_of_setTotal := by
    rintro before after rfl total
    apply received_updateAll_perm
    simp [List.filterMap_cons, Update.bytes?]
  in_session := by
    rintro session steps rfl kept rfl
    exact session.request_run kept

/-! ### Arrivals beyond the limit -/

namespace Sample

/-- A request that is sixteen bytes short of the limit. -/
def nearLimit : Request := ⟨"https://host/film", some 4, 0xFFFFFFFFFFFFFFEF⟩

def twenty : List Update := [.advance 9, .setTotal 7, .advance 5, .setTotal 20, .advance 6]

def watched : List Session.Step :=
  [.advance 9, .call "https", .setTotal 7, .stop true, .advance 5, .save, .setTotal 20, .call "ftp",
    .advance 6]

end Sample

theorem twenty_bytes_reach_limit :
    (Sample.nearLimit.updateAll Sample.twenty).received.toNat = 2 ^ 64 - 1 ∧
      (Sample.nearLimit.updateAll [.advance 9, .setTotal 7]).received ≤
        (Sample.nearLimit.updateAll Sample.twenty).received ∧
      (Sample.nearLimit.updateAll [.advance 5, .advance 6, .setTotal 1, .advance 9]).received =
        (Sample.nearLimit.updateAll Sample.twenty).received ∧
      (Sample.nearLimit.updateAll (Sample.twenty ++ [.advance 1])).total = some 20 ∧
      ((Session.run ⟨⟨Sample.nearLimit, false, .standard, .counter 3⟩, .ofUrl ""⟩
        Sample.watched).2.call.request).total = some 20 := by
  have progress := progress_saturates_once Sample.nearLimit Sample.twenty
  have ht : (Sample.nearLimit.updateAll Sample.twenty).total = some 20 := progress.total.trans rfl
  refine ⟨progress.received.trans (by decide), progress.growing _ ⟨_, rfl⟩,
    progress.order_free _ (by decide), ?_, ?_⟩
  · exact (progress.total_of_advance Sample.twenty [] (List.append_nil _).symm 1).trans ht
  · rw [progress.in_session ⟨⟨Sample.nearLimit, false, .standard, .counter 3⟩, .ofUrl ""⟩
      Sample.watched rfl (by decide) rfl]
    exact ht

end Request
end HandlerRegistry.Dispatch
