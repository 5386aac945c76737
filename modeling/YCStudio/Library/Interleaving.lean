import Mathlib.Data.List.Perm.Basic
import YCStudio.Library.History
import YCStudio.Library.Script

-- What a session does stays its own until it publishes. idle is what a publication answers that
-- has nothing to publish.
structure SharedStore (ε Op : Type) (Reply : Op → Type) (σ τ : Type) where
  serve : (op : Op) → σ → τ → Except ε (Reply op) × σ × τ
  waits : Op → List τ → Bool
  idle : (op : Op) → τ → Option (Except ε (Reply op))
  Publishes : Op → Prop
  serve_private : ∀ op shared own, ¬ Publishes op → (serve op shared own).2.1 = shared
  serve_idle : ∀ op shared own reply, idle op own = some reply →
    (serve op shared own).1 = reply ∧ (serve op shared own).2.1 = shared

namespace Script

variable {ε Op : Type} {Reply : Op → Type} {α β : Type} {publishes : Op → Prop}

def Concludes (publishes : Op → Prop) (post : α → Prop) : Script ε Op Reply α → Prop
  | done _ => True
  | ask op next =>
      (publishes op → ∀ reply, ∃ result, next reply = done result ∧ ∀ a, result = .ok a → post a) ∧
        (¬ publishes op → ∀ reply, Concludes publishes post (next reply))

theorem concludes_of_asks {post : α → Prop} {script : Script ε Op Reply α}
    (h : script.Asks fun op => ¬ publishes op) : script.Concludes publishes post := by
  induction script with
  | done result => trivial
  | ask op next ih => exact ⟨fun hpublishes => absurd hpublishes h.1, fun _ reply => ih _ (h.2 reply)⟩

theorem concludes_perform (op : Op) :
    (perform op : Script ε Op Reply (Reply op)).Concludes publishes fun _ => True :=
  ⟨fun _ reply => ⟨reply, rfl, fun _ _ => trivial⟩, fun _ _ => trivial⟩

theorem concludes_bind {post : α → Prop} {post' : β → Prop} {script : Script ε Op Reply α}
    {next : α → Script ε Op Reply β} (h : script.Concludes publishes post)
    (hdone : ∀ a, post a → ∃ result, next a = done result ∧ ∀ b, result = .ok b → post' b)
    (hnext : ∀ a, (next a).Concludes publishes post') :
    (script >>= next).Concludes publishes post' := by
  induction script with
  | done result =>
    cases result with
    | ok a => exact hnext a
    | error e => trivial
  | ask op inner ih =>
    refine ⟨fun hpublishes reply => ?_, fun hprivate reply => ih reply (h.2 hprivate reply)⟩
    obtain ⟨result, hresult, hpost⟩ := h.1 hpublishes reply
    change ∃ result, (inner reply).bind next = done result ∧ _
    rw [hresult]
    cases result with
    | ok a => exact hdone a (hpost a rfl)
    | error e => exact ⟨.error e, rfl, fun _ hok => by cases hok⟩

theorem concludes_asks_bind {post : β → Prop} {script : Script ε Op Reply α}
    {next : α → Script ε Op Reply β} (h : script.Asks fun op => ¬ publishes op)
    (hnext : ∀ a, (next a).Concludes publishes post) :
    (script >>= next).Concludes publishes post :=
  @concludes_bind ε Op Reply α β publishes (fun _ => False) post script next (concludes_of_asks h)
    (fun _ hnever => hnever.elim) hnext

theorem concludes_recover {post : α → Prop} {script : Script ε Op Reply α}
    {handle : ε → Script ε Op Reply α} (h : script.Asks fun op => ¬ publishes op)
    (hhandle : ∀ e, (handle e).Concludes publishes post) :
    (tryCatch script handle).Concludes publishes post := by
  induction script with
  | done result =>
    cases result with
    | ok a => trivial
    | error e => exact hhandle e
  | ask op inner ih =>
    exact ⟨fun hpublishes => absurd hpublishes h.1, fun _ reply => ih reply (h.2 reply)⟩

end Script

namespace SharedStore

open Script

variable {ε Op : Type} {Reply : Op → Type} {σ τ ι α : Type}

structure Client (store : SharedStore ε Op Reply σ τ) (ι α : Type) where
  call : ι
  log : List (Op × τ)
  own : τ
  rest : Script ε Op Reply α

structure System (store : SharedStore ε Op Reply σ τ) (ι α : Type) where
  shared : σ
  clients : List (store.Client ι α)

variable {store : SharedStore ε Op Reply σ τ}

namespace Client

def answer (client : store.Client ι α) : Option (Except ε α) :=
  match client.rest with
  | done result => some result
  | ask op next =>
      match store.idle op client.own with
      | none => none
      | some reply =>
          match next reply with
          | done result => some result
          | ask _ _ => none

def session (client : store.Client ι α) : Option τ :=
  match client.rest with
  | done _ => none
  | ask _ _ => some client.own

def waits (client : store.Client ι α) (others : List τ) : Bool :=
  match client.rest with
  | done _ => false
  | ask op _ => store.waits op others

def turn (client : store.Client ι α) (shared : σ) : σ × store.Client ι α :=
  match client.rest with
  | done _ => (shared, client)
  | ask op next =>
      ((store.serve op shared client.own).2.1,
        { client with
          log := client.log ++ [(op, client.own)]
          own := (store.serve op shared client.own).2.2
          rest := next (store.serve op shared client.own).1 })

end Client

namespace System

def others (s : store.System ι α) (i : Nat) : List (store.Client ι α) := s.clients.eraseIdx i

def step (i : Nat) (s : store.System ι α) : store.System ι α :=
  match s.clients[i]? with
  | none => s
  | some client =>
      if client.waits ((s.others i).filterMap Client.session) then s
      else {
        shared := (client.turn s.shared).1
        clients := s.clients.set i (client.turn s.shared).2 }

def runAll (schedule : List Nat) (s : store.System ι α) : store.System ι α :=
  History.play step schedule s

def answers (s : store.System ι α) : List (ι × Except ε α) :=
  s.clients.filterMap fun client => client.answer.map (client.call, ·)

end System

def Alike (store : SharedStore ε Op Reply σ τ) (shared shared' : σ) (entry : Op × τ) : Prop :=
  (store.serve entry.1 shared' entry.2).1 = (store.serve entry.1 shared entry.2).1 ∧
    (store.serve entry.1 shared' entry.2).2.2 = (store.serve entry.1 shared entry.2).2.2

instance [∀ op, DecidableEq (Except ε (Reply op))] [DecidableEq τ] (shared shared' : σ)
    (entry : Op × τ) : Decidable (store.Alike shared shared' entry) :=
  inferInstanceAs (Decidable (_ ∧ _))

def System.Calm (i : Nat) (s : store.System ι α) : Prop :=
  ∀ client ∈ s.others i, client.answer = none →
    ∀ entry ∈ client.log, store.Alike s.shared (s.step i).shared entry

instance [∀ op, DecidableEq (Except ε (Reply op))] [DecidableEq τ] (i : Nat)
    (s : store.System ι α) : Decidable (s.Calm i) :=
  inferInstanceAs (Decidable (∀ client ∈ s.others i, client.answer = none → _))

def System.Answered (s : store.System ι α) : Prop := ∀ client ∈ s.clients, client.answer ≠ none

instance (s : store.System ι α) : Decidable s.Answered :=
  inferInstanceAs (Decidable (∀ client ∈ s.clients, _))

section Serial

variable (store : SharedStore ε Op Reply σ τ) (program : ι → Script ε Op Reply α) (start : ι → τ)

def perform (call : ι) (shared : σ) : Except ε α × σ :=
  let out := (program call).run (fun op s => store.serve op s.1 s.2) (shared, start call)
  (out.1, out.2.1)

def Serially : σ → List (ι × Except ε α) → σ → Prop
  | shared, [], shared' => shared' = shared
  | shared, entry :: entries, shared' =>
      (perform store program start entry.1 shared).1 = entry.2 ∧
        Serially (perform store program start entry.1 shared).2 entries shared'

def Client.enter (call : ι) : store.Client ι α where
  call
  log := []
  own := start call
  rest := program call

def System.enter (shared : σ) (calls : List ι) : store.System ι α where
  shared
  clients := calls.map (Client.enter store program start)

end Serial

section Reaches

inductive Reaches (store : SharedStore ε Op Reply σ τ) (shared : σ) :
    Script ε Op Reply α × τ → List (Op × τ) → Script ε Op Reply α × τ → Prop
  | nil {p : Script ε Op Reply α × τ} : Reaches store shared p [] p
  | cons {op : Op} {next : Except ε (Reply op) → Script ε Op Reply α} {own : τ}
      {log : List (Op × τ)} {p : Script ε Op Reply α × τ} (hprivate : ¬ store.Publishes op)
      (tail : Reaches store shared
        (next (store.serve op shared own).1, (store.serve op shared own).2.2) log p) :
      Reaches store shared (ask op next, own) ((op, own) :: log) p

variable {shared shared' : σ} {p : Script ε Op Reply α × τ} {own : τ} {log : List (Op × τ)}

theorem Reaches.snoc {op : Op} {next : Except ε (Reply op) → Script ε Op Reply α}
    (h : store.Reaches shared p log (ask op next, own)) (hprivate : ¬ store.Publishes op) :
    store.Reaches shared p (log ++ [(op, own)])
      (next (store.serve op shared own).1, (store.serve op shared own).2.2) := by
  generalize hq : (ask op next, own) = q at h
  induction h with
  | nil =>
    subst hq
    exact .cons hprivate .nil
  | cons hfirst _ ih => exact .cons hfirst (ih hq)

theorem Reaches.of_alike {q : Script ε Op Reply α × τ} (h : store.Reaches shared p log q)
    (halike : ∀ entry ∈ log, store.Alike shared shared' entry) : store.Reaches shared' p log q := by
  induction h with
  | nil => exact .nil
  | cons hprivate _ ih =>
    obtain ⟨hreply, hown⟩ := halike _ List.mem_cons_self
    refine .cons hprivate ?_
    dsimp only at hreply hown
    rw [hreply, hown]
    exact ih fun entry hentry => halike entry (List.mem_cons_of_mem _ hentry)

theorem Reaches.run {q : Script ε Op Reply α × τ} (h : store.Reaches shared p log q) :
    p.1.run (fun op s => store.serve op s.1 s.2) (shared, p.2) =
      q.1.run (fun op s => store.serve op s.1 s.2) (shared, q.2) := by
  induction h with
  | nil => rfl
  | @cons op next own log p hprivate _ ih =>
    rw [← ih]
    change (next (store.serve op shared own).1).run _ (store.serve op shared own).2 = _
    have hsame : (store.serve op shared own).2 = (shared, (store.serve op shared own).2.2) :=
      Prod.ext (store.serve_private op shared own hprivate) rfl
    rw [hsame]

end Reaches

section Runs

variable {program : ι → Script ε Op Reply α} {start : ι → τ}

theorem Serially.append {shared shared' shared'' : σ} {entries entries' : List (ι × Except ε α)}
    (h : Serially store program start shared entries shared')
    (h' : Serially store program start shared' entries' shared'') :
    Serially store program start shared (entries ++ entries') shared'' := by
  induction entries generalizing shared with
  | nil =>
    cases h
    exact h'
  | cons entry entries ih => exact ⟨h.1, ih h.2⟩

theorem serially_singleton {shared shared' : σ} {call : ι} {answer : Except ε α}
    (h : perform store program start call shared = (answer, shared')) :
    Serially store program start shared [(call, answer)] shared' := by
  rw [Serially, h]
  exact ⟨rfl, rfl⟩

structure Client.Follows (program : ι → Script ε Op Reply α) (start : ι → τ) (shared : σ)
    (client : store.Client ι α) : Prop where
  concludes : client.rest.Concludes store.Publishes fun _ => True
  reaches : client.answer = none → store.Reaches shared (program client.call, start client.call)
    client.log (client.rest, client.own)

namespace Client

variable {client : store.Client ι α} {shared : σ} {op : Op} {own : τ}
  {next : Except ε (Reply op) → Script ε Op Reply α} {result : Except ε α}

theorem answer_of_done (h : client.rest = done result) : client.answer = some result := by
  rw [answer, h]

theorem answer_eq_some (h : client.answer = some result) :
    client.rest = done result ∨ ∃ op next reply, client.rest = ask op next ∧
      store.idle op client.own = some reply ∧ next reply = done result := by
  rw [answer] at h
  split at h
  · next result' hrest =>
    cases h
    exact Or.inl hrest
  · next op next hrest =>
    split at h
    · cases h
    · next reply hidle =>
      split at h
      · next result' hresult =>
        cases h
        exact Or.inr ⟨op, next, reply, hrest, hidle, hresult⟩
      · cases h

theorem turn_of_ask (h : client.rest = ask op next) :
    client.turn shared = ((store.serve op shared client.own).2.1,
      { client with
        log := client.log ++ [(op, client.own)]
        own := (store.serve op shared client.own).2.2
        rest := next (store.serve op shared client.own).1 }) := by
  rw [turn, h]

theorem run_rest (h : client.answer = some result) (shared : σ) :
    ∃ own, client.rest.run (fun op s => store.serve op s.1 s.2) (shared, client.own) =
      (result, shared, own) := by
  rcases answer_eq_some h with hrest | ⟨op, next, reply, hrest, hidle, hresult⟩
  · rw [hrest]
    exact ⟨client.own, rfl⟩
  · obtain ⟨hreply, hshared⟩ := store.serve_idle op shared client.own reply hidle
    rw [hrest]
    refine ⟨(store.serve op shared client.own).2.2, ?_⟩
    change (next (store.serve op shared client.own).1).run _ (store.serve op shared client.own).2 = _
    rw [hreply, hresult]
    exact Prod.ext rfl (Prod.ext hshared rfl)

theorem Follows.advance (h : client.Follows program start shared)
    (hrest : client.rest = ask op next) (hopen : client.answer = none) :
    (client.turn shared).2.Follows program start (client.turn shared).1 ∧
      ((client.turn shared).2.answer = none → (client.turn shared).1 = shared) ∧
      ∀ result, (client.turn shared).2.answer = some result →
        perform store program start client.call shared = (result, (client.turn shared).1) := by
  have hreaches := h.reaches hopen
  have hconcludes := h.concludes
  rw [hrest] at hreaches hconcludes
  rw [turn_of_ask hrest]
  by_cases hpublishes : store.Publishes op
  · obtain ⟨result, hresult, _⟩ :=
      hconcludes.1 hpublishes (store.serve op shared client.own).1
    have hanswer : ∀ own log, ({ client with
        log, own, rest := next (store.serve op shared client.own).1 } :
          store.Client ι α).answer = some result := fun _ _ => answer_of_done hresult
    refine ⟨⟨?_, fun hnone => ?_⟩, fun hnone => ?_, fun result' hsome => ?_⟩
    · dsimp only
      rw [hresult]
      trivial
    · rw [hanswer] at hnone
      cases hnone
    · rw [hanswer] at hnone
      cases hnone
    · rw [hanswer] at hsome
      cases hsome
      have hrun := hreaches.run
      change _ = (next (store.serve op shared client.own).1).run _
        (store.serve op shared client.own).2 at hrun
      rw [hresult] at hrun
      dsimp only at hrun ⊢
      rw [perform, hrun]
      rfl
  · have hshared := store.serve_private op shared client.own hpublishes
    have hnext := hreaches.snoc hpublishes
    rw [hshared]
    refine ⟨⟨hconcludes.2 hpublishes _, fun _ => hnext⟩, fun _ => rfl, fun result hsome => ?_⟩
    obtain ⟨own, hrun⟩ := run_rest hsome shared
    dsimp only at hrun
    rw [perform, hnext.run, hrun]

theorem Follows.turn (h : client.Follows program start shared) :
    (client.turn shared).2.Follows program start (client.turn shared).1 ∧
      ((client.turn shared).1 = shared ∧ (client.turn shared).2.answer = client.answer ∨
        client.answer = none ∧ ∃ result, (client.turn shared).2.answer = some result ∧
          perform store program start client.call shared = (result, (client.turn shared).1)) := by
  cases hrest : client.rest with
  | done result =>
    rw [Client.turn, hrest]
    exact ⟨h, Or.inl ⟨rfl, rfl⟩⟩
  | ask op next =>
    cases hanswer : client.answer with
    | none =>
      obtain ⟨hfollows, hsame, hperform⟩ := h.advance hrest hanswer
      refine ⟨hfollows, ?_⟩
      cases hafter : (client.turn shared).2.answer with
      | none => exact Or.inl ⟨hsame hafter, rfl⟩
      | some result => exact Or.inr ⟨rfl, result, rfl, hperform result hafter⟩
    | some result =>
      rcases answer_eq_some hanswer with hdone | ⟨op', next', reply, hask, hidle, hresult⟩
      · rw [hrest] at hdone
        cases hdone
      · obtain ⟨hreply, hshared⟩ := store.serve_idle op' shared client.own reply hidle
        rw [turn_of_ask hask, hreply]
        refine ⟨⟨?_, fun hnone => ?_⟩, Or.inl ⟨hshared, answer_of_done hresult⟩⟩
        · dsimp only
          rw [hresult]
          trivial
        · rw [answer_of_done hresult] at hnone
          cases hnone

theorem call_turn : (client.turn shared).2.call = client.call := by
  rw [Client.turn]
  split <;> rfl

end Client

namespace System

variable {s : store.System ι α} {i : Nat}

def Follows (program : ι → Script ε Op Reply α) (start : ι → τ) (s : store.System ι α) : Prop :=
  ∀ client ∈ s.clients, client.Follows program start s.shared

def Explains (program : ι → Script ε Op Reply α) (start : ι → τ) (s s' : store.System ι α)
    (entries : List (ι × Except ε α)) : Prop :=
  Serially store program start s.shared entries s'.shared ∧ s'.answers.Perm (s.answers ++ entries)

theorem Explains.refl (s : store.System ι α) : s.Explains program start s [] :=
  ⟨rfl, by rw [List.append_nil]⟩

theorem Explains.trans {s' s'' : store.System ι α} {entries entries' : List (ι × Except ε α)}
    (h : s.Explains program start s' entries) (h' : s'.Explains program start s'' entries') :
    s.Explains program start s'' (entries ++ entries') := by
  refine ⟨h.1.append h'.1, h'.2.trans ?_⟩
  rw [← List.append_assoc]
  exact h.2.append_right entries'

theorem step_cases (i : Nat) (s : store.System ι α) :
    s.step i = s ∨ ∃ before client after, s.clients = before ++ client :: after ∧
      s.others i = before ++ after ∧ s.step i = {
        shared := (client.turn s.shared).1
        clients := before ++ (client.turn s.shared).2 :: after } := by
  cases hclient : s.clients[i]? with
  | none => exact Or.inl (by rw [step, hclient])
  | some client =>
    by_cases hwaits : client.waits ((s.others i).filterMap Client.session) = true
    · left
      rw [step, hclient]
      exact if_pos hwaits
    · right
      obtain ⟨hi, hget⟩ := List.getElem?_eq_some_iff.mp hclient
      obtain ⟨before, after, hclients, hlength, hset⟩ :=
        @List.exists_of_set _ i (client.turn s.shared).2 s.clients hi
      rw [hget] at hclients
      refine ⟨before, client, after, hclients, ?_, ?_⟩
      · rw [others, hclients, List.eraseIdx_append_of_length_le (Nat.le_of_eq hlength), hlength]
        simp
      · rw [step, hclient, ← hset]
        exact if_neg hwaits

theorem step_explains (h : s.Follows program start) (hcalm : s.Calm i) :
    (s.step i).Follows program start ∧ ∃ entries, s.Explains program start (s.step i) entries := by
  rcases step_cases i s with hsame | ⟨before, client, after, hclients, hothers, hstep⟩
  · rw [hsame]
    exact ⟨h, [], .refl s⟩
  · rw [Calm, hothers, hstep] at hcalm
    have hkept : ∀ other ∈ before ++ after,
        other.Follows program start (client.turn s.shared).1 := by
      intro other hother
      have hold := h other (hclients ▸
        List.mem_append.mpr ((List.mem_append.mp hother).imp_right (List.mem_cons_of_mem _)))
      exact ⟨hold.concludes, fun hnone => (hold.reaches hnone).of_alike (hcalm other hother hnone)⟩
    obtain ⟨hfollows, hturn⟩ := (h client (by rw [hclients]; simp)).turn
    rw [hstep]
    refine ⟨fun other hother => ?_, ?_⟩
    · rcases List.mem_append.mp hother with hmem | hmem
      · exact hkept other (List.mem_append_left _ hmem)
      · rcases List.mem_cons.mp hmem with rfl | hmem
        · exact hfollows
        · exact hkept other (List.mem_append_right _ hmem)
    · have hanswers : s.answers = (before ++ client :: after).filterMap
          fun client => client.answer.map (client.call, ·) := by rw [answers, hclients]
      rcases hturn with ⟨hshared, hanswer⟩ | ⟨hnone, result, hsome, hperform⟩
      · refine ⟨[], hshared, ?_⟩
        rw [List.append_nil, hanswers]
        simp only [answers, List.filterMap_append, List.filterMap_cons, hanswer, Client.call_turn]
        exact .refl _
      · refine ⟨[(client.call, result)], serially_singleton hperform, ?_⟩
        rw [hanswers]
        simp only [answers, List.filterMap_append, List.filterMap_cons, hnone, hsome,
          Client.call_turn, Option.map_none, Option.map_some]
        rw [List.append_assoc]
        exact (List.perm_append_singleton _ _).symm.append_left _

-- Induction on the schedule: each step adds the answer it gives to those given before.
theorem runAll_explains (h : s.Follows program start) {schedule : List Nat}
    (hcalm : History.Admissible step Calm schedule s) :
    (s.runAll schedule).Follows program start ∧
      ∃ entries, s.Explains program start (s.runAll schedule) entries := by
  induction schedule generalizing s with
  | nil => exact ⟨h, [], .refl s⟩
  | cons i schedule ih =>
    obtain ⟨hnext, entries, hentries⟩ := step_explains h hcalm.1
    obtain ⟨hlast, entries', hentries'⟩ := ih hnext hcalm.2
    exact ⟨hlast, entries ++ entries', hentries.trans hentries'⟩

theorem enter_follows (hconcludes : ∀ call, (program call).Concludes store.Publishes fun _ => True)
    (shared : σ) (calls : List ι) :
    (enter store program start shared calls).Follows program start :=
  List.forall_mem_map.mpr fun call _ => ⟨hconcludes call, fun _ => .nil⟩

theorem enter_serially (shared : σ) (calls : List ι) :
    Serially store program start shared (enter store program start shared calls).answers shared := by
  rw [answers, enter, List.filterMap_map]
  induction calls with
  | nil => exact rfl
  | cons call calls ih =>
    rw [List.filterMap_cons]
    cases hanswer : (Client.enter store program start call).answer with
    | none =>
      simp only [Function.comp_apply, hanswer, Option.map_none]
      exact ih
    | some result =>
      simp only [Function.comp_apply, hanswer, Option.map_some]
      obtain ⟨own, hrun⟩ := Client.run_rest hanswer shared
      have hperform : perform store program start call shared = (result, shared) := by
        change (program call).run _ (shared, start call) = _ at hrun
        rw [perform, hrun]
      exact (serially_singleton hperform).append ih

theorem map_call_step (i : Nat) (s : store.System ι α) :
    (s.step i).clients.map Client.call = s.clients.map Client.call := by
  rcases step_cases i s with hsame | ⟨before, client, after, hclients, _, hstep⟩
  · rw [hsame]
  · rw [hstep, hclients]
    simp only [List.map_append, List.map_cons, Client.call_turn]

theorem map_call_runAll (schedule : List Nat) (s : store.System ι α) :
    (s.runAll schedule).clients.map Client.call = s.clients.map Client.call := by
  induction schedule generalizing s with
  | nil => rfl
  | cons i schedule ih => exact (ih (s.step i)).trans (map_call_step i s)

theorem map_call_enter (shared : σ) (calls : List ι) :
    (enter store program start shared calls).clients.map Client.call = calls := by
  rw [enter, List.map_map]
  exact List.map_id calls

theorem sublist_answers (s : store.System ι α) :
    (s.answers.map Prod.fst).Sublist (s.clients.map Client.call) := by
  rw [answers]
  induction s.clients with
  | nil => exact .slnil
  | cons client clients ih =>
    rw [List.filterMap_cons]
    cases client.answer with
    | none => exact ih.cons _
    | some result => exact ih.cons_cons _

theorem Answered.map_call {s : store.System ι α} (h : s.Answered) :
    s.answers.map Prod.fst = s.clients.map Client.call := by
  obtain ⟨shared, clients⟩ := s
  rw [Answered] at h
  rw [answers]
  induction clients with
  | nil => rfl
  | cons client clients ih =>
    obtain ⟨hclient, hrest⟩ := List.forall_mem_cons.mp h
    obtain ⟨result, hresult⟩ := Option.ne_none_iff_exists'.mp hclient
    rw [List.filterMap_cons, hresult]
    exact congrArg (client.call :: ·) (ih hrest)

theorem serialisable_of_calm
    (hconcludes : ∀ call, (program call).Concludes store.Publishes fun _ => True) {shared : σ}
    {calls : List ι} {schedule later : List Nat}
    (hcalm : History.Admissible step Calm (schedule ++ later)
      (enter store program start shared calls)) :
    ∃ entries entries',
      Serially store program start shared entries
        ((enter store program start shared calls).runAll schedule).shared ∧
      ((enter store program start shared calls).runAll schedule).answers.Perm entries ∧
      ((enter store program start shared calls).runAll schedule).Explains program start
        ((enter store program start shared calls).runAll (schedule ++ later)) entries' := by
  obtain ⟨hfirst, hsecond⟩ := hcalm.split
  obtain ⟨hfollows, entries, hserially, hperm⟩ := runAll_explains
    (enter_follows hconcludes shared calls) hfirst
  obtain ⟨_, entries', hlater⟩ := runAll_explains hfollows hsecond
  refine ⟨_, entries', (enter_serially shared calls).append hserially, hperm, ?_⟩
  have hruns := History.play_append step schedule later (enter store program start shared calls)
  change runAll (schedule ++ later) _ = _ at hruns
  rw [hruns]
  exact hlater

end System

end Runs

end SharedStore
