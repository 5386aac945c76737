import YCStudio.Api.Previews
import YCStudio.Consistency.BatchProgress
import YCStudio.Consistency.ManagementViews

namespace YCStudio

open Database

def SourcePreviewResponse.listing (preview : SourcePreviewResponse) : SourceView where
  sourceId := preview.sourceId
  filename := preview.filename
  ingestStatus := preview.ingestStatus
  dirPath := preview.dirPath
  createdAt := preview.createdAt
  documentId := preview.documentId
  title := preview.title
  chunkCount := preview.chunkCount

def Opens (libs : ParserLibraries) (server : Server) (user : Uuid) (source : Source)
    (view : SourceView) : Prop :=
  ∀ query : PreviewQuery, ∃ preview,
    previewKbSource libs server.database server.files user source.id query = .ok preview ∧
      preview.listing = view

structure ListsSources (libs : ParserLibraries) (server : Server) (user collectionId : Uuid)
    (views : List SourceView) (rows : List Source) : Prop where
  live : rows.Perm (server.database.liveSources collectionId)
  newestFirst : rows.Pairwise fun a b => b.createdAt ≤ a.createdAt
  opens : List.Forall₂ (Opens libs server user) rows views

def collectionMissing (id : Uuid) : HttpException where
  statusCode := 404
  detail := "Collection ".toList ++ id.str ++ " was not found".toList

def collectionHidden : HttpException where
  statusCode := 403
  detail := "Only the owner may view this collection".toList

inductive CollectionAnswers (libs : ParserLibraries) (server : Server) (user id : Uuid) :
    Except HttpException CollectionResponse → Except HttpException (List SourceView) → Prop
  | missing (h : ∀ collection ∈ server.database.kbCollections, collection.id ≠ id) :
      CollectionAnswers libs server user id (.error (collectionMissing id))
        (.error (collectionMissing id))
  | hidden {collection : Collection} (hmem : collection ∈ server.database.kbCollections)
      (hid : collection.id = id) (hhidden : ¬ collection.VisibleTo user) :
      CollectionAnswers libs server user id (.error collectionHidden) (.error collectionHidden)
  | shown {collection : Collection} {views : List SourceView} {rows : List Source}
      (hmem : collection ∈ server.database.kbCollections) (hid : collection.id = id)
      (hvisible : collection.VisibleTo user)
      (hlists : ListsSources libs server user id views rows) :
      CollectionAnswers libs server user id (.ok (collectionResponse collection)) (.ok views)

section Collections

variable {libs : ParserLibraries} {server : Server} {user : Uuid}

theorem previewKbSource_listing (hsettled : server.database.Settled) {source : Source}
    (hsource : source ∈ server.database.sources) (hlive : source.deletedAt = none)
    (hvisible : visibleSource server.database user source.id = .ok source) :
    Opens libs server user source (sourceView server.database source) := by
  intro query
  rw [previewKbSource, getSourcePreview, hvisible, sourceView]
  rcases hsettled.holdsOne hsource hlive with hnone | ⟨document, hembodies⟩
  · simp only [bind, Except.bind, newestDocument_nil hnone, hnone]
    exact ⟨_, rfl, rfl⟩
  · have hsome := newestDocument_singleton hembodies.documents hembodies.live
    simp only [bind, Except.bind, hsome, hembodies.documents]
    exact ⟨_, rfl, rfl⟩

theorem listsSources_of_visible (libs : ParserLibraries)
    (hsettled : server.database.Settled) {collection : Collection}
    (hmem : collection ∈ server.database.kbCollections) (hvisible : collection.VisibleTo user) :
    ∃ views rows, listKbSources server.database user collection.id = .ok views ∧
      ListsSources libs server user collection.id views rows := by
  obtain ⟨rows, hperm, hsorted, hviews⟩ := listSources_ok hmem hvisible
  refine ⟨_, rows, congrArg (Except.mapError _) hviews, hperm, hsorted, ?_⟩
  rw [List.forall₂_map_right_iff, List.forall₂_same]
  intro source hsource
  obtain ⟨hstored, hin, hlive⟩ := mem_liveSources.mp (hperm.mem_iff.mp hsource)
  exact previewKbSource_listing hsettled hstored hlive
    (visibleSource_ok hstored hlive hmem hin.symm hvisible)

theorem collectionAnswers (libs : ParserLibraries) (hsettled : server.database.Settled) (user id : Uuid) :
    CollectionAnswers libs server user id (getKbCollection server.database user id)
      (listKbSources server.database user id) := by
  cases hget : server.database.kbCollections.get? id with
  | none =>
    rw [getKbCollection, listKbSources, listSources, hget]
    exact .missing (Table.get?_eq_none_iff.mp hget)
  | some collection =>
    obtain ⟨hmem, rfl⟩ := Table.get?_eq_some_iff.mp hget
    by_cases hvisible : collection.VisibleTo user
    · obtain ⟨views, rows, hviews, hlists⟩ := listsSources_of_visible libs hsettled hmem hvisible
      have hallowed : ¬ (collection.scope ≠ .public ∧ collection.userId ≠ some user) :=
        fun hhidden => hvisible.elim hhidden.1 hhidden.2
      rw [hviews, getKbCollection, hget]
      simp only [if_neg hallowed]
      exact .shown hmem rfl hvisible hlists
    · have hhidden : collection.scope ≠ .public ∧ collection.userId ≠ some user :=
        not_or.mp hvisible
      rw [getKbCollection, listKbSources, listSources, hget]
      simp only [if_pos hhidden]
      exact .hidden hmem rfl hvisible

end Collections

section Batches

variable {db : Database} {user batchId : Uuid}

def Database.batchRows (db : Database) (batchId : Uuid) : List Source :=
  db.sources.rows.filter (·.batchId = some batchId)

structure BatchProgress.Tallies (batchId : Uuid) (rows : List Source) (progress : BatchProgress) :
    Prop where
  reported : progress.batchId = batchId
  total : progress.total = rows.length
  completed : progress.completed = rows.countP (·.ingestStatus = .completed)
  failed : progress.failed = rows.countP (·.ingestStatus = .failed)
  pending : progress.pending = rows.countP (·.ingestStatus = .pending)
  inProgress : progress.inProgress = 0
  balanced : progress.completed + progress.failed + progress.pending = progress.total

inductive BatchAnswers (db : Database) (user batchId : Uuid) :
    Except HttpException BatchProgress → Prop
  | missing (h : ∀ batch ∈ db.ingestBatches, batch.id ≠ batchId) :
      BatchAnswers db user batchId (.error {
        statusCode := 404
        detail := "Batch ".toList ++ batchId.str ++ " was not found".toList })
  | hidden {batch : IngestBatch} (hmem : batch ∈ db.ingestBatches) (hid : batch.id = batchId)
      (hforeign : batch.userId ≠ user) :
      BatchAnswers db user batchId (.error {
        statusCode := 403
        detail := "Only the owner may view this batch".toList })
  | shown {batch : IngestBatch} {progress : BatchProgress} (hmem : batch ∈ db.ingestBatches)
      (hid : batch.id = batchId) (hown : batch.userId = user)
      (htallies : progress.Tallies batchId (db.batchRows batchId)) : BatchAnswers db user batchId (.ok progress)

theorem count_ingestStatus (rows : List Source) (status : IngestStatus) :
    (rows.map Source.ingestStatus).count status = rows.countP (·.ingestStatus = status) := by
  rw [List.count, List.countP_map]
  apply List.countP_congr
  intro source _
  simp

theorem Database.Settled.rests (hsettled : db.Settled) (batchId : Uuid) (status : IngestStatus)
    (hbusy : status ∈ [IngestStatus.parsing, .chunking, .embedding]) :
    ((db.batchRows batchId).map Source.ingestStatus).count status = 0 := by
  rw [List.count_eq_zero, List.mem_map]
  rintro ⟨source, hsource, hstatus⟩
  have hsettles := hsettled source (Table.mem_def.mpr (List.mem_of_mem_filter hsource))
  rw [Settles, hstatus] at hsettles
  simp only [List.mem_cons, List.not_mem_nil, or_false] at hbusy
  obtain rfl | rfl | rfl := hbusy <;> exact hsettles

theorem batchAnswers (hsettled : db.Settled) (user batchId : Uuid) :
    BatchAnswers db user batchId (batchProgress db user batchId) := by
  rw [batchProgress, getBatchProgress]
  cases hget : db.ingestBatches.get? batchId with
  | none =>
    exact .missing (Table.get?_eq_none_iff.mp hget)
  | some batch =>
    obtain ⟨hmem, hid⟩ := Table.get?_eq_some_iff.mp hget
    by_cases hown : batch.userId = user
    · let statuses := (db.batchRows batchId).map Source.ingestStatus
      have hcounts := length_eq_counts statuses
      have hbusy : statuses.count .parsing + (statuses.count .chunking +
          (statuses.count .embedding + 0)) = 0 := by
        rw [hsettled.rests batchId .parsing (by decide), hsettled.rests batchId .chunking (by decide),
          hsettled.rests batchId .embedding (by decide)]
      have hbalanced : statuses.count .completed + statuses.count .failed +
          statuses.count .pending = statuses.length := by omega
      simp only [hown, ne_eq, not_true_eq_false, if_false, lookup_groupCount, sum_groupCount,
        List.map_cons, List.map_nil, List.sum_cons, List.sum_nil]
      exact .shown hmem hid hown ⟨rfl, List.length_map _, count_ingestStatus _ _,
        count_ingestStatus _ _, count_ingestStatus _ _, hbusy, hbalanced⟩
    · simp only [hown, ne_eq, not_false_eq_true, if_true]
      exact .hidden hmem hid hown

end Batches

namespace KbEvent

theorem settled_performAll (libs : ParserLibraries) (limit : Nat) (users : List Uuid)
    (events : List KbEvent) :
    (performAll libs limit events (.empty users)).database.Settled := by
  have hstep : ∀ (server : Server) (request : Request), server.Sound →
      server.database.Settled → True → (request.perform server).database.Settled := by
    intro server request hsound hsettled _
    obtain ⟨events, hfollows, _⟩ := Request.steps hsound request
    rw [hfollows.database]
    exact hsettled.play hsound.intact hfollows.admissible
  rw [performAll_eq]
  have hany : History.Admissible Request.perform (fun _ _ => True)
      (events.filterMap (lower libs limit)) (.empty users) := .of_forall (fun _ _ _ => trivial) _
  have hsettled : (Server.empty users).database.Settled := .empty users
  exact (Request.performAll_invariant (fun _ _ => True) hstep (.empty users) hsettled hany).2

theorem performAll_listings (libs : ParserLibraries) (limit : Nat) (users : List Uuid)
    (events : List KbEvent) (user id : Uuid) :
    let server := performAll libs limit events (.empty users)
    CollectionAnswers libs server user id (getKbCollection server.database user id)
        (listKbSources server.database user id) ∧
      BatchAnswers server.database user id (batchProgress server.database user id) := by
  intro server
  have hsettled := settled_performAll libs limit users events
  exact ⟨collectionAnswers libs hsettled user id, batchAnswers hsettled user id⟩

end KbEvent

end YCStudio
