import YCStudio.Consistency.Ingestion
import YCStudio.Tasks.IngestTasks

namespace YCStudio

structure Server.Sound (server : Server) : Prop where
  intact : server.database.Intact
  past : server.database.Ids (·.stream < server.clock)

def Database.Refusal.duplicatesContent (refusal : Database.Refusal) : Prop :=
  refusal = .violates .uqSourcesCollectionContentHash

structure Server.Follows (server server' : Server) (events : List Event) : Prop where
  database : server'.database = Event.play events server.database
  admissible : Event.Admissible events server.database
  sound : server'.Sound
  clock : server'.clock = server.clock + 1
  refused : ∀ refusal ∈ server'.refused,
    refusal ∈ server.refused ∨ ¬ refusal.duplicatesContent
  drawn : ∀ e ∈ events, ∀ id ∈ e.newIds, id.stream = server.clock

structure World.Keeps (w w' : World) : Prop where
  database : w'.database = w.database
  refused : w'.session.refused = w.session.refused

inductive World.Ends (w : World) : World → List Event → Prop
  | discarded {w' : World} (hdatabase : w'.database = w.database)
      (hrefused : ∀ refusal ∈ w'.session.refused,
        refusal ∈ w.session.refused ∨ ¬ refusal.duplicatesContent) : w.Ends w' []
  | committed {w' : World} {events : List Event} (h : w.Follows w' events) :
      w.Ends w'.commit events

namespace World

variable {w w' w'' : World} {events : List Event}

theorem Lost.keeps (h : w.Lost w') : w.Keeps w' := ⟨h.database, h.refused⟩

theorem keeps_refuse (w : World) : w.Keeps (w.refuse []) := ⟨rfl, List.append_nil _⟩

theorem Follows.keeps (h : w.Follows w' events) : w.Keeps w' := ⟨h.database, h.refused⟩

theorem Follows.keeps_trans (h : w.Follows w' events) (h' : w'.Keeps w'') : w.Keeps w'' :=
  ⟨h'.database.trans h.database, h'.refused.trans h.refused⟩

theorem Settles.raises {source : Source} {collection : Collection} {failure : Failure}
    {run : Except Exn IngestResult × World}
    (h : w.Settles source collection run (.error failure)) :
    (∃ e, run.1 = .error e) ∧ w.Keeps run.2 := by
  rw [Settles] at h
  split at h
  · exact ⟨⟨_, h.1⟩, h.2.keeps⟩
  · exact ⟨h.1, h.2.keeps⟩

theorem Keeps.ends (h : w.Keeps w') : w.Ends w' [] :=
  .discarded h.database fun _ hrefusal => Or.inl (h.refused ▸ hrefusal)

theorem Lost.ends (h : w.Lost w') : w.Ends w' [] := h.keeps.ends

theorem Follows.discard (h : w.Follows w' events) : w.Ends w' [] := h.keeps.ends

theorem Lost.commit {α : Type} (h : w.Lost w') (e : Exn) :
    ∃ e' w'', Runs (YCStudio.commit >>= fun _ => (throw e : Program α)) w' (.error e') w'' ∧
      w.Ends w'' [] := by
  cases hhealth : w'.session.health with
  | active => exact absurd hhealth h.unusable
  | inactive => exact ⟨_, _, (Runs.commitInactive hhealth).stop, h.ends⟩
  | aborted =>
    exact ⟨_, _, (Runs.commitAborted hhealth).bind (Runs.raise e),
      .discarded h.database fun _ hrefusal => Or.inl (h.refused ▸ hrefusal)⟩

theorem Lost.execute (h : w.Lost w') (write : Write) :
    ∃ e, Runs (YCStudio.execute write) w' (.error e) w' := by
  cases hhealth : w'.session.health with
  | active => exact absurd hhealth h.unusable
  | inactive => exact ⟨_, Runs.executeUnusable (by rw [hhealth]; rfl) write⟩
  | aborted => exact ⟨_, Runs.executeUnusable (by rw [hhealth]; rfl) write⟩

theorem Follows.commit (h : w.Follows w' events) :
    Runs YCStudio.commit w' (.ok ()) w'.commit ∧ w.Ends w'.commit events :=
  ⟨Runs.commit h.ready.active, .committed h⟩

end World

namespace Server

variable {server : Server}

theorem Sound.ready (h : server.Sound) : server.connect.Ready where
  sound := ⟨h.intact, h.past.before⟩
  active := rfl
  savepoint := rfl

theorem Sound.follows (h : server.Sound) {w : World} {events : List Event}
    (hends : server.connect.Ends w events) : server.Follows (server.close w) events := by
  have hpast : server.database.Ids (·.stream < server.clock + 1) :=
    h.past.mono fun _ hid => Nat.lt_succ_of_lt hid
  cases hends with
  | discarded hdatabase hrefused =>
    refine ⟨hdatabase, trivial, ⟨?_, ?_⟩, rfl, ?_, fun _ he => absurd he List.not_mem_nil⟩
    · change w.database.Intact
      rw [hdatabase]
      exact h.intact
    · change w.database.Ids (·.stream < server.clock + 1)
      rw [hdatabase]
      exact hpast
    · intro refusal hmem
      rcases List.mem_append.mp hmem with hmem | hmem
      · exact Or.inl hmem
      · rcases hrefused refusal hmem with hnone | hother
        · exact absurd hnone List.not_mem_nil
        · exact Or.inr hother
  | @committed w' _ hfollows =>
    have hview : w'.view = Event.play events server.database := hfollows.view
    refine ⟨hview, hfollows.admissible, ⟨hfollows.ready.sound.intact, ?_⟩, rfl, ?_,
      hfollows.drawn⟩
    · change w'.view.Ids (·.stream < server.clock + 1)
      rw [hview]
      apply hpast.play hfollows.admissible
      intro e he id hid
      have hstream : id.stream = server.clock := hfollows.drawn e he id hid
      exact hstream ▸ Nat.lt_succ_self _
    · intro refusal hmem
      rcases List.mem_append.mp hmem with hmem | hmem
      · exact Or.inl hmem
      · have hnone : w'.session.refused = [] := hfollows.refused
        exact absurd (hnone ▸ hmem) List.not_mem_nil

theorem Sound.transact {α : Type} (h : server.Sound) {program : Program α} {events : List Event}
    (hends : server.connect.Ends (exec program server.connect).2 events) :
    server.Follows (transact program server).2 events := h.follows hends

theorem Sound.empty (users : List Uuid) : (Server.empty users).Sound where
  intact := Database.Intact.empty users
  past :=
    { collections := fun _ h => absurd h (Table.not_mem_empty _)
      batches := fun _ h => absurd h (Table.not_mem_empty _)
      sources := fun _ h => absurd h (Table.not_mem_empty _)
      documents := fun _ h => absurd h (Table.not_mem_empty _)
      chunks := fun _ h => absurd h (Table.not_mem_empty _) }

end Server

end YCStudio
