import HandlerRegistry.Dispatch.Session
import Mathlib.Tactic.SplitIfs

/-! # The accounts of a session

A handler of the registry either serves a call or refuses it, and which of the two does not depend on
the caller's data (`Accounts`). One step of a session therefore counts a call exactly if it reports it,
and so does a whole session, however the caller changes the request, the flag and the options between
the calls (`session_accounts`). -/

namespace HandlerRegistry.Dispatch
set_option autoImplicit false

/-! ## Single calls -/

theorem Status.isOk_iff {status : Status} : status.isOk = true ↔ status = .ok := beq_iff_eq

/-- What a caller sees of a reply but for the data. -/
def Reply.seen (reply : Reply) : Status × Request × List Request :=
  (reply.status, reply.request, reply.progress)

theorem UserData.count_eq_self {data : UserData} (idle : ∀ calls, data ≠ .counter calls) :
    data.count = data := by
  cases data with
  | counter calls => exact absurd rfl (idle calls)
  | absent | number | text => rfl

/-- A handler keeps accounts: it serves a call or refuses it for a reason of its own, and looks at
everything but the caller's data to decide. -/
structure Accounts (handler : Handler) : Prop where
  reply : ∀ call, handler call = .served call ∨
    ∃ status ∈ [Status.unsupported, .protocol, .aborted], handler call = .refused status call
  blind : ∀ call data, (handler { call with data := data }).status = (handler call).status

/-- What a reply says about its call. -/
structure Answers (call : Call) (reply : Reply) : Prop where
  request : reply.request = call.request
  reports_once : reply.status = .ok → reply.progress = [call.request]
  counts_once : reply.status = .ok → reply.data = call.data.count
  refusal : reply.status ≠ .ok → reply.status ∈ [Status.unsupported, .protocol, .aborted]
  no_report : reply.status ≠ .ok → reply.progress = []
  no_count : reply.status ≠ .ok → reply.data = call.data

namespace Accounts

theorem ftp : Accounts Protocols.ftp where
  reply call := by
    rw [Protocols.ftp]
    split_ifs
    · exact .inr ⟨.unsupported, by decide, rfl⟩
    · exact .inr ⟨.protocol, by decide, rfl⟩
    · exact .inr ⟨.aborted, by decide, rfl⟩
    · exact .inl rfl
  blind call data := by
    simp only [Protocols.ftp]
    split_ifs <;> rfl

theorem http : Accounts Protocols.http where
  reply call := by
    rw [Protocols.http]
    split_ifs
    · exact .inr ⟨.unsupported, by decide, rfl⟩
    · exact .inr ⟨.protocol, by decide, rfl⟩
    · exact .inr ⟨.aborted, by decide, rfl⟩
    · exact .inl rfl
  blind call data := by
    simp only [Protocols.http]
    split_ifs <;> rfl

theorem https : Accounts Protocols.https where
  reply call := by
    rw [Protocols.https]
    split_ifs
    · exact .inr ⟨.unsupported, by decide, rfl⟩
    · exact http.reply call
  blind call data := by
    simp only [Protocols.https]
    split_ifs
    · rfl
    · exact http.blind call data

variable {handler : Handler}

theorem request (h : Accounts handler) (call : Call) : (handler call).request = call.request := by
  obtain hs | ⟨status, -, hr⟩ := h.reply call
  · rw [hs]
    rfl
  · rw [hr]
    rfl

theorem of_ok (h : Accounts handler) {call : Call} (ok : (handler call).status = .ok) :
    handler call = .served call := by
  obtain hs | ⟨status, hm, hr⟩ := h.reply call
  · exact hs
  · rw [hr] at ok
    obtain rfl : status = .ok := ok
    exact absurd hm (by decide)

theorem of_ne_ok (h : Accounts handler) {call : Call} (ne : (handler call).status ≠ .ok) :
    (handler call).status ∈ [Status.unsupported, .protocol, .aborted] ∧
      handler call = .refused (handler call).status call := by
  obtain hs | ⟨status, hm, hr⟩ := h.reply call
  · rw [hs] at ne
    exact absurd rfl ne
  · rw [hr]
    exact ⟨hm, rfl⟩

/-- What a caller sees of a call does not depend on the data that is given. -/
theorem seen_with_data (h : Accounts handler) (call : Call) (data : UserData) :
    (handler { call with data := data }).seen = (handler call).seen := by
  have hs := h.blind call data
  by_cases ok : (handler call).status = .ok
  · rw [h.of_ok ok, h.of_ok (hs.trans ok)]
    rfl
  · rw [(h.of_ne_ok ok).2, (h.of_ne_ok fun he => ok (hs.symm.trans he)).2, hs]
    rfl

/-- Data that is no counter is left as it was. -/
theorem data_eq (h : Accounts handler) {call : Call} (idle : ∀ calls, call.data ≠ .counter calls) :
    (handler call).data = call.data := by
  obtain hs | ⟨status, -, hr⟩ := h.reply call
  · rw [hs]
    exact UserData.count_eq_self idle
  · rw [hr]
    rfl

theorem answers (h : Accounts handler) (call : Call) :
    Answers call (handler call) where
  request := h.request call
  reports_once ok := by
    rw [h.of_ok ok]
    rfl
  counts_once ok := by
    rw [h.of_ok ok]
    rfl
  refusal ne := (h.of_ne_ok ne).1
  no_report ne := by
    rw [(h.of_ne_ok ne).2]
    rfl
  no_count ne := by
    rw [(h.of_ne_ok ne).2]
    rfl

end Accounts

/-! ## The handlers of the registry -/

namespace Registry

theorem lookup_eq (name : String) : lookup name = builtIn.lookup name := rfl

theorem accounts_of_lookup {name : String} {handler : Handler}
    (h : lookup name = some handler) : Accounts handler := by
  have hm : ∀ entry ∈ builtIn, Accounts entry.2 := by
    simp only [builtIn, List.forall_mem_cons]
    exact ⟨.ftp, .http, .https, List.forall_mem_nil _⟩
  have hd : (builtIn.map Prod.fst).Nodup := by decide
  rw [lookup_eq] at h
  exact hm _ ((Keyed.lookup_eq_some_iff name handler builtIn hd).mp h)

end Registry

/-! ## The calls of a session -/

/-- The reply that a step shows, if it shows one. -/
def Session.Shown.reply? : Session.Shown → Option Reply
  | .reply shown => some shown
  | _ => none

/-- Whether the caller leaves the data alone in a step. -/
def Session.Step.leavesData : Session.Step → Bool
  | .data _ => false
  | _ => true

namespace Session

def withData (session : Session) (data : UserData) : Session :=
  { session with call := { session.call with data := data } }

/-- The call that a step makes, with its reply. -/
def exchange (session : Session) (step : Step) : Option (Call × Reply) :=
  (session.step step).1.reply?.map fun reply => (session.call, reply)

/-- The calls of a session, in their order, each with its reply. -/
def exchanges (session : Session) : List Step → List (Call × Reply)
  | [] => []
  | step :: rest => (session.exchange step).toList ++ exchanges (session.step step).2 rest

/-- The number of calls that were served. -/
def served (exchanges : List (Call × Reply)) : Nat :=
  exchanges.countP fun exchange => exchange.2.status.isOk

variable {session : Session} {step : Step}

theorem replies_run (session : Session) (steps : List Step) :
    (session.run steps).1.filterMap Shown.reply? = (session.exchanges steps).map Prod.snd := by
  induction steps generalizing session with
  | nil => rfl
  | cons step rest ih =>
    rw [run, exchanges, List.map_append, List.filterMap_cons, ih, exchange]
    cases (session.step step).1.reply? <;> rfl

/-- A step makes no call and keeps the data, or it makes one call and changes nothing but the
data. -/
theorem step_cases (session : Session) (h : step.leavesData = true) :
    (session.exchange step = none ∧ (session.step step).2.call.data = session.call.data) ∨
      ∃ handler, Accounts handler ∧
        session.exchange step = some (session.call, handler session.call) ∧
        (session.step step).2 = session.withData (handler session.call).data := by
  cases step with
  | call name =>
    rw [exchange, Session.step]
    cases hl : Registry.lookup name with
    | none => exact .inl ⟨rfl, rfl⟩
    | some handler =>
      have ha := Registry.accounts_of_lookup hl
      refine .inr ⟨handler, ha, rfl, ?_⟩
      simp only [withData, ha.request]
  | data data => cases h
  | request | advance | setTotal | save | restore | compare | stop | options =>
    exact .inl ⟨rfl, rfl⟩

theorem mem_exchanges {steps : List Step} {exchange : Call × Reply}
    (kept : ∀ step ∈ steps, step.leavesData = true) (hm : exchange ∈ session.exchanges steps) :
    ∃ handler, Accounts handler ∧ exchange.2 = handler exchange.1 := by
  induction steps generalizing session with
  | nil => cases hm
  | cons step rest ih =>
    obtain ⟨hk, hr⟩ := List.forall_mem_cons.mp kept
    rw [exchanges, List.mem_append] at hm
    obtain hm | hm := hm
    · obtain ⟨hn, -⟩ | ⟨handler, ha, hs, -⟩ := session.step_cases hk
      · rw [hn] at hm
        cases hm
      · rw [hs, Option.mem_toList] at hm
        obtain rfl := Option.some.inj hm
        exact ⟨handler, ha, rfl⟩
    · exact ih hr hm

/-! ## Whole sessions -/

/-- The counter goes up by one with every call that is served. -/
theorem counter_run {steps : List Step} {calls : UInt32}
    (counter : session.call.data = .counter calls)
    (kept : ∀ step ∈ steps, step.leavesData = true) :
    (session.run steps).2.call.data =
      .counter (calls + UInt32.ofNat (served (session.exchanges steps))) := by
  induction steps generalizing session calls with
  | nil =>
    rw [exchanges, served, List.countP_nil]
    exact counter.trans (congrArg UserData.counter (UInt32.add_zero calls).symm)
  | cons step rest ih =>
    obtain ⟨hk, hr⟩ := List.forall_mem_cons.mp kept
    rw [run, exchanges, served, List.countP_append]
    obtain ⟨hn, hd⟩ | ⟨handler, ha, hs, hd⟩ := session.step_cases hk
    · rw [ih (hd.trans counter) hr, hn, Option.toList_none, List.countP_nil, Nat.zero_add, served]
    · rw [hs, Option.toList_some, List.countP_singleton, hd]
      by_cases ok : (handler session.call).status = .ok
      · have hc : (session.withData (handler session.call).data).call.data =
            .counter (calls + 1) := by
          rw [ha.of_ok ok]
          exact congrArg UserData.count counter
        rw [ih hc hr, if_pos (Status.isOk_iff.mpr ok), UInt32.ofNat_add, UInt32.add_assoc, served]
        rfl
      · have hc : (session.withData (handler session.call).data).call.data = .counter calls := by
          rw [(ha.of_ne_ok ok).2]
          exact counter
        rw [ih hc hr, if_neg fun hok => ok (Status.isOk_iff.mp hok), Nat.zero_add, served]

/-- As many reports of progress are made as calls are served. -/
theorem reports_eq_served {exchanges : List (Call × Reply)}
    (h : ∀ exchange ∈ exchanges, ∃ handler, Accounts handler ∧ exchange.2 = handler exchange.1) :
    (exchanges.flatMap fun exchange => exchange.2.progress).length = served exchanges := by
  induction exchanges with
  | nil => rfl
  | cons exchange rest ih =>
    obtain ⟨⟨handler, ha, he⟩, hr⟩ := List.forall_mem_cons.mp h
    rw [List.flatMap_cons, List.length_append, ih hr, served, served, List.countP_cons,
      Nat.add_comm, he]
    by_cases ok : (handler exchange.1).status = .ok
    · rw [if_pos (Status.isOk_iff.mpr ok), ha.of_ok ok]
      rfl
    · rw [if_neg fun hok => ok (Status.isOk_iff.mp hok), (ha.of_ne_ok ok).2]
      rfl

/-! ## Data that is no counter -/

/-- A step shows the same and leaves the same, whatever the data, but for the data itself. -/
theorem step_withData {data : UserData} (idle : ∀ calls, data ≠ .counter calls)
    (h : step.leavesData = true) :
    ((session.withData data).exchange step).map (fun exchange => exchange.2.seen) =
        (session.exchange step).map (fun exchange => exchange.2.seen) ∧
      ((session.withData data).step step).2 = (session.step step).2.withData data := by
  cases step with
  | call name =>
    simp only [exchange, Session.step]
    cases hl : Registry.lookup name with
    | none => exact ⟨rfl, rfl⟩
    | some handler =>
      have ha := Registry.accounts_of_lookup hl
      have hs := ha.seen_with_data session.call data
      refine ⟨congrArg some hs, ?_⟩
      simp only [withData, ha.request]
      rw [ha.data_eq idle]
  | data data => cases h
  | request | advance | setTotal | save | restore | compare | stop | options => exact ⟨rfl, rfl⟩

theorem run_withData (session : Session) {data : UserData}
    (idle : ∀ calls, data ≠ .counter calls) {steps : List Step}
    (kept : ∀ step ∈ steps, step.leavesData = true) :
    ((session.withData data).exchanges steps).map (fun exchange => exchange.2.seen) =
        (session.exchanges steps).map (fun exchange => exchange.2.seen) ∧
      ((session.withData data).run steps).2 = (session.run steps).2.withData data := by
  induction steps generalizing session with
  | nil => exact ⟨rfl, rfl⟩
  | cons step rest ih =>
    obtain ⟨hk, hr⟩ := List.forall_mem_cons.mp kept
    obtain ⟨hs, hd⟩ := session.step_withData idle hk
    obtain ⟨he, hf⟩ := ih (session.step step).2 hr
    refine ⟨?_, ?_⟩
    · rw [exchanges, exchanges, hd, List.map_append, List.map_append, he, ← Option.toList_map,
        ← Option.toList_map, hs]
    · rw [run, run, hd]
      exact hf

/-- Data that is no counter is still there after every call. -/
theorem mem_exchanges_withData {data : UserData} (idle : ∀ calls, data ≠ .counter calls)
    {steps : List Step} (kept : ∀ step ∈ steps, step.leavesData = true)
    {exchange : Call × Reply} (hm : exchange ∈ (session.withData data).exchanges steps) :
    exchange.2.data = data := by
  induction steps generalizing session with
  | nil => cases hm
  | cons step rest ih =>
    obtain ⟨hk, hr⟩ := List.forall_mem_cons.mp kept
    rw [exchanges, List.mem_append, (session.step_withData idle hk).2] at hm
    obtain hm | hm := hm
    · obtain ⟨hn, -⟩ | ⟨handler, ha, hs, -⟩ := (session.withData data).step_cases hk
      · rw [hn] at hm
        cases hm
      · rw [hs, Option.mem_toList] at hm
        obtain rfl := Option.some.inj hm
        exact ha.data_eq idle
    · exact ih hr hm

/-! ## The accounts -/

theorem step_call (session : Session) {name : String} {handler : Handler}
    (h : (name, handler) ∈ Registry.builtIn) :
    (session.step (.call name)).1 = .reply (handler session.call) := by
  have hd : (Registry.builtIn.map Prod.fst).Nodup := by decide
  have hl : Registry.lookup name = some handler :=
    (Keyed.lookup_eq_some_iff name handler Registry.builtIn hd).mpr h
  rw [Session.step, hl]

theorem exists_step_call_eq (session : Session) (name : String) :
    ∃ data, (session.step (.call name)).2 = session.withData data := by
  rw [Session.step]
  cases hl : Registry.lookup name with
  | none => exact ⟨session.call.data, rfl⟩
  | some handler =>
    refine ⟨(handler session.call).data, ?_⟩
    simp only [withData, (Registry.accounts_of_lookup hl).request]

/-- A session is seen the same with other data, which stays as it is. -/
structure LeavesData (session : Session) (steps : List Step) (data : UserData) : Prop where
  seen : ((session.withData data).exchanges steps).map (fun exchange => exchange.2.seen) =
    (session.exchanges steps).map (fun exchange => exchange.2.seen)
  data_eq : ∀ exchange ∈ (session.withData data).exchanges steps, exchange.2.data = data
  run_eq : ((session.withData data).run steps).2 = (session.run steps).2.withData data

/-- The accounts of a session whose counter is at some number of calls. -/
structure KeepsAccounts (session : Session) (steps : List Step) (calls : UInt32) : Prop where
  replies : (session.run steps).1.filterMap Shown.reply? = (session.exchanges steps).map Prod.snd
  /-- The counter goes up by the number of calls that are served. -/
  counter : ∃ final, (session.run steps).2.call.data = .counter final ∧
    final.toNat = calls.toNat + served (session.exchanges steps)
  /-- As many reports of progress are made. -/
  reports : ((session.exchanges steps).flatMap fun exchange => exchange.2.progress).length =
    served (session.exchanges steps)
  answers : ∀ call reply, (call, reply) ∈ session.exchanges steps → Answers call reply
  /-- A reply is that of the handler called, in whatever session. -/
  calls_handler : ∀ (state : Session) (name : String) (handler : Handler),
    (name, handler) ∈ Registry.builtIn →
      (state.step (.call name)).1 = .reply (handler state.call)
  /-- A call changes nothing in a session but the data. -/
  frame : ∀ (state : Session) (name : String),
    ∃ data, (state.step (.call name)).2 = state.withData data
  no_counter : ∀ data, (∀ other, data ≠ .counter other) → LeavesData session steps data

/-- In a session whose caller hands a counter to all calls, and changes everything but the data
between them, the counter goes up by the number of calls that are served, which is the number of
reports of progress. A call that is served reports the request once, as it is; one that is refused
reports nothing and leaves the data. No call changes the request, the flag or the options. With any
data that is no counter the session is the same, and the data stays. -/
theorem session_accounts (session : Session) (steps : List Step) (calls : UInt32)
    (counter : session.call.data = .counter calls)
    (kept : ∀ step ∈ steps, step.leavesData = true)
    (bound : calls.toNat + served (session.exchanges steps) < UInt32.size) :
    KeepsAccounts session steps calls where
  replies := replies_run session steps
  counter := by
    refine ⟨_, counter_run counter kept, ?_⟩
    have hs : served (session.exchanges steps) < UInt32.size := by omega
    rw [UInt32.toNat_add, UInt32.toNat_ofNat_of_lt' hs]
    exact Nat.mod_eq_of_lt bound
  reports := reports_eq_served fun exchange hm => mem_exchanges kept hm
  answers call reply hm := by
    obtain ⟨handler, ha, rfl⟩ : ∃ handler, Accounts handler ∧ reply = handler call :=
      mem_exchanges kept hm
    exact ha.answers call
  calls_handler state _ _ h := state.step_call h
  frame := exists_step_call_eq
  no_counter data idle := by
    obtain ⟨hs, hf⟩ := session.run_withData idle kept
    exact ⟨hs, fun exchange hm => mem_exchanges_withData idle kept hm, hf⟩

/-! ### Calls of all three handlers -/

namespace Sample

/-- A call of each handler, some refused, under changing requests, flags and options. -/
def steps : List Step :=
  [.request "https://host/", .advance 5, .call "https", .call "ftp", .stop true, .call "http",
    .stop false, .options { Options.standard with maxConnections := 0 }, .call "https",
    .request "ftp://host/file", .setTotal 9, .call "ftp"]

/-- A session with a counter close to its end. -/
def counting : Session := start.withData (.counter 4294967293)

end Sample

theorem counting_session_accounts :
    served (Sample.counting.exchanges Sample.steps) = 2 ∧
      (Sample.counting.run Sample.steps).2.call.data = .counter 4294967295 ∧
      ((Sample.counting.exchanges Sample.steps).flatMap fun exchange =>
        exchange.2.progress).length = 2 ∧
      ((Sample.counting.withData (.text "note")).run Sample.steps).2.call.data = .text "note" := by
  have hs : served (Sample.counting.exchanges Sample.steps) = 2 := by decide +kernel
  have accounts := session_accounts Sample.counting Sample.steps 4294967293 rfl (by decide) (by
    rw [hs]
    decide)
  obtain ⟨final, hd, hf⟩ := accounts.counter
  rw [hs] at hf
  refine ⟨hs, ?_, accounts.reports.trans hs, ?_⟩
  · rw [hd, show final = 4294967295 from UInt32.toNat_inj.mp hf]
  · rw [(accounts.no_counter (.text "note") fun calls h => by cases h).run_eq]
    rfl

end Session
end HandlerRegistry.Dispatch
