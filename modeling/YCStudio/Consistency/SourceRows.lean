import YCStudio.Consistency.Originals

namespace YCStudio

namespace Event

def Puts : Event → Database → Source → Prop
  | addSource source, _, row => row = source
  | reopen _ assigned, _, row => row = assigned
  | assignBatch source batchId, _, row => row = source.withBatch batchId
  | complete source _ _, _, row => row = source.withStatus .completed
  | fail source errorMessage, _, row => row = source.fail errorMessage
  | remove source deletedAt, _, row => row = source.softDelete deletedAt
  | dropCollection id, db, row =>
      ∃ old ∈ db.sources, row = old.leaveBatch ((db.batchesOf id).map IngestBatch.id)
  | _, _, _ => False

theorem mem_sources {e : Event} {db : Database} (henabled : e.Enabled db) {row : Source}
    (h : row ∈ (e.apply db).sources) : row ∈ db.sources ∨ e.Puts db row := by
  have hput : ∀ {db : Database} {assigned : Source}, row ∈ (db.putSource assigned).sources →
      row ∈ db.sources ∨ row = assigned := fun h =>
    (Table.mem_put.mp h).elim (fun hnew => Or.inr hnew.1) fun hold => Or.inl hold.1
  cases e with
  | addCollection collection => exact Or.inl h
  | addBatch batch => exact Or.inl h
  | addSource source => exact (Table.mem_insert henabled.1).mp h
  | reopen source assigned => exact hput h
  | assignBatch source batchId => exact hput h
  | complete source collection out => exact hput h
  | fail source errorMessage => exact hput h
  | remove source deletedAt => exact hput h
  | dropCollection id =>
    obtain ⟨old, hold, _, rfl⟩ := Database.mem_sources_dropCollection.mp h
    exact Or.inr ⟨old, hold, rfl⟩

def Maintains (P : Source → Prop) (e : Event) : Prop :=
  ∀ db : Database, e.Enabled db → (∀ row ∈ db.sources, P row) → ∀ row, e.Puts db row → P row

theorem maintains_play {P : Source → Prop} {events : List Event} {db : Database}
    (h : ∀ row ∈ db.sources, P row) (hadmissible : Admissible events db)
    (hmaintains : ∀ e ∈ events, e.Maintains P) : ∀ row ∈ (play events db).sources, P row := by
  induction events generalizing db with
  | nil => exact h
  | cons e events ih =>
    obtain ⟨hhead, hrest⟩ := List.forall_mem_cons.mp hmaintains
    refine ih (fun row hrow => ?_) hadmissible.2 hrest
    rcases mem_sources hadmissible.1 hrow with hold | hput
    · exact h row hold
    · exact hhead db hadmissible.1 h row hput

end Event

namespace Request

theorem performAll_sources {P : Source → Prop} (allowed : Request → Prop)
    (hmaintains : ∀ server request events originals, Stores server request events originals →
      allowed request → ∀ e ∈ events, e.Maintains P)
    (users : List Uuid) {requests : List Request} (hallowed : ∀ request ∈ requests, allowed request) :
    ∀ row ∈ (performAll requests (.empty users)).database.sources, P row := by
  have hadmissible : History.Admissible perform (fun request _ => allowed request) requests
      (.empty users) := .of_forall (fun request hrequest _ => hallowed request hrequest) _
  have hstep : ∀ (server : Server) (request : Request), server.Sound →
      (∀ row ∈ server.database.sources, P row) → allowed request →
        ∀ row ∈ (request.perform server).database.sources, P row := by
    intro server request hsound hinv hrequest
    obtain ⟨events, hfollows, _, hstores⟩ := steps hsound request
    rw [hfollows.database]
    exact Event.maintains_play hinv hfollows.admissible (hmaintains _ _ _ _ hstores hrequest)
  have hempty : ∀ row ∈ (Server.empty users).database.sources, P row :=
    fun _ h => absurd h (Table.not_mem_empty _)
  exact (performAll_invariant (fun request _ => allowed request) hstep (.empty users) hempty
    hadmissible).2

end Request

end YCStudio
