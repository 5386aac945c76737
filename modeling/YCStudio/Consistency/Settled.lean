import YCStudio.Consistency.Operations

namespace YCStudio

namespace Database

structure Embodies (db : Database) (sourceId collectionId : Uuid) (document : Document) : Prop where
  documents : db.documentsOf sourceId = [document]
  live : document.deletedAt = none
  ordinals : (db.chunksOf document.id).map Chunk.ordinal =
    List.range (db.chunksOf document.id).length
  collections : ∀ chunk ∈ db.chunksOf document.id, chunk.collectionId = collectionId
  embedded : ∃ collection ∈ db.kbCollections, collection.id = collectionId ∧
    ∀ chunk ∈ db.chunksOf document.id, chunk.EmbeddedFor collection.kind

def Settles (db : Database) (source : Source) : Prop :=
  match source.ingestStatus with
  | .pending =>
      source.deletedAt = none → source.errorMessage = none ∧ db.documentsOf source.id = []
  | .completed =>
      source.deletedAt = none →
        source.errorMessage = none ∧ ∃ document, db.Embodies source.id source.collectionId document
  | .failed =>
      source.deletedAt = none → source.errorMessage ≠ none ∧ db.documentsOf source.id = []
  | .parsing => False
  | .chunking => False
  | .embedding => False

def Settled (db : Database) : Prop := ∀ source ∈ db.sources, db.Settles source

structure Resembles (db db' : Database) (source : Source) : Prop where
  documents : db'.documentsOf source.id = db.documentsOf source.id
  chunks : ∀ document ∈ db.documentsOf source.id,
    (∀ chunk ∈ db.chunksOf document.id, chunk.collectionId = source.collectionId) →
      db'.chunksOf document.id = db.chunksOf document.id
  collections : ∀ collection ∈ db.kbCollections, collection.id = source.collectionId →
    collection ∈ db'.kbCollections

variable {db db' : Database} {source : Source}

theorem Settles.of_resembles (h : db.Settles source) (hsame : db.Resembles db' source) :
    db'.Settles source := by
  rw [Settles] at h ⊢
  cases hstatus : source.ingestStatus with
  | pending =>
    rw [hstatus] at h
    intro hlive
    rw [hsame.documents]
    exact h hlive
  | failed =>
    rw [hstatus] at h
    intro hlive
    rw [hsame.documents]
    exact h hlive
  | completed =>
    rw [hstatus] at h
    intro hlive
    obtain ⟨herror, document, hembodies⟩ := h hlive
    have hmem : document ∈ db.documentsOf source.id := by
      rw [hembodies.documents]
      exact List.mem_singleton_self document
    have hchunks := hsame.chunks document hmem hembodies.collections
    obtain ⟨collection, hcollection, hid, hembedded⟩ := hembodies.embedded
    refine ⟨herror, document, hsame.documents.trans hembodies.documents, hembodies.live, ?_, ?_,
      collection, hsame.collections collection hcollection hid, hid, ?_⟩
    · rw [hchunks]
      exact hembodies.ordinals
    · rw [hchunks]
      exact hembodies.collections
    · rw [hchunks]
      exact hembedded
  | _ =>
    rw [hstatus] at h
    exact h.elim

theorem AgreesOff.resembles {sourceId : Uuid} (h : db.AgreesOff db' sourceId)
    (hcollections : db'.kbCollections = db.kbCollections) (hne : source.id ≠ sourceId) :
    db.Resembles db' source where
  documents := h.documents source.id hne
  chunks document hdocument _ := by
    obtain ⟨hmem, hsource⟩ := List.mem_filter.mp hdocument
    exact h.chunks document hmem (of_decide_eq_true hsource ▸ hne)
  collections collection hcollection _ := hcollections ▸ hcollection

theorem Settled.of_agreesOff {sourceId : Uuid} (hsettled : db.Settled)
    (h : db.AgreesOff db' sourceId) (hcollections : db'.kbCollections = db.kbCollections)
    {assigned : Source} (hmem : assigned ∈ db'.sources) (hid : assigned.id = sourceId)
    (htouched : db'.Settles assigned) : db'.Settled :=
  h.forall_sources hsettled hmem hid htouched fun _ _ hne hsettles =>
    hsettles.of_resembles (h.resembles hcollections hne)

theorem documentsOf_fresh (hintact : db.Intact) {id : Uuid} (hfresh : db.sources.Fresh id) :
    db.documentsOf id = [] := by
  apply List.filter_eq_nil_iff.mpr
  intro document hdocument hid
  obtain ⟨source, hsource, hid'⟩ := hintact.documentSources document hdocument
  exact hfresh source hsource (hid'.trans (of_decide_eq_true hid))

theorem chunksOf_fresh (hintact : db.Intact) {id : Uuid} (hfresh : db.documents.Fresh id) :
    db.chunksOf id = [] := by
  apply List.filter_eq_nil_iff.mpr
  intro chunk hchunk hid
  obtain ⟨document, hdocument, hid'⟩ := hintact.chunkDocuments chunk hchunk
  exact hfresh document hdocument (hid'.trans (of_decide_eq_true hid))

theorem documentsOf_dropDocuments (db : Database) (id : Uuid) :
    (db.dropDocuments [id]).documentsOf id = [] := by
  apply List.filter_eq_nil_iff.mpr
  intro document hdocument hid
  have hkept := (mem_dropDocuments.mp hdocument).2
  exact hkept (List.mem_singleton.mpr (of_decide_eq_true hid))

section Complete

variable {collection : Collection} {out : Ingested}
  (henabled : Event.Enabled (.complete source collection out) db)

include henabled

theorem documentsOf_complete_append :
    (db.complete source out).documentsOf source.id = db.documentsOf source.id ++ [out.document] := by
  obtain ⟨_, _, _, _, hfresh, hwell, _⟩ := henabled
  have hrows : (db.complete source out).documents.rows = db.documents.rows ++ [out.document] :=
    Table.rows_insert hfresh
  have hkept : [out.document].filter (·.sourceId = source.id) = [out.document] :=
    List.filter_cons_of_pos (decide_eq_true hwell.sourceId_eq)
  rw [documentsOf, hrows, List.filter_append, ← documentsOf, hkept]

theorem documentsOf_complete (hempty : db.documentsOf source.id = []) :
    (db.complete source out).documentsOf source.id = [out.document] := by
  rw [documentsOf_complete_append henabled, hempty, List.nil_append]

theorem chunksOf_complete (hintact : db.Intact) :
    (db.complete source out).chunksOf out.document.id = out.chunks := by
  obtain ⟨_, _, _, _, hfresh, hwell, haccepts⟩ := henabled
  have hrows : (db.complete source out).chunks.rows = db.chunks.rows ++ out.chunks :=
    Table.rows_insertAll haccepts.fresh haccepts.ids
  have hkept : out.chunks.filter (·.documentId = out.document.id) = out.chunks :=
    List.filter_eq_self.mpr fun chunk hchunk => decide_eq_true (hwell.documents chunk hchunk)
  rw [chunksOf, hrows, List.filter_append, ← chunksOf, chunksOf_fresh hintact hfresh, hkept,
    List.nil_append]

theorem embodies_complete (hintact : db.Intact) (hempty : db.documentsOf source.id = []) :
    (db.complete source out).Embodies source.id source.collectionId out.document := by
  have hchunks := chunksOf_complete henabled hintact
  have hdocuments := documentsOf_complete henabled hempty
  obtain ⟨_, _, hcollection, hid, _, hwell, _⟩ := henabled
  refine ⟨hdocuments, hwell.live, ?_, ?_, collection, hcollection, hid, ?_⟩
  · rw [hchunks]
    exact hwell.ordinals
  · rw [hchunks]
    exact fun chunk hchunk => (hwell.collections chunk hchunk).trans hid
  · rw [hchunks]
    exact hwell.embedded

end Complete

theorem settles_pending (hadmits : Event.Admits source) (hempty : db.documentsOf source.id = []) :
    db.Settles source := by
  rw [Settles, hadmits.pending]
  exact fun _ => ⟨hadmits.errorMessage, hempty⟩

theorem Settles.documentsOf_eq_nil (h : db.Settles source) (hpending : source.ingestStatus = .pending)
    (hlive : source.deletedAt = none) : source.errorMessage = none ∧ db.documentsOf source.id = [] := by
  rw [Settles, hpending] at h
  exact h hlive

theorem settles_softDelete (h : db.Settles source) (deletedAt : Timestamp) :
    db'.Settles (source.softDelete deletedAt) := by
  have hdeleted : (source.softDelete deletedAt).deletedAt ≠ none := Option.some_ne_none deletedAt
  rw [Settles] at h ⊢
  cases hstatus : source.ingestStatus with
  | pending =>
    simp only [Source.softDelete, hstatus]
    exact fun hlive => absurd hlive hdeleted
  | completed =>
    simp only [Source.softDelete, hstatus]
    exact fun hlive => absurd hlive hdeleted
  | failed =>
    simp only [Source.softDelete, hstatus]
    exact fun hlive => absurd hlive hdeleted
  | _ =>
    rw [hstatus] at h
    exact h.elim

theorem resembles_dropCollection {id : Uuid} (hsource : source ∈ db.sources)
    (hkept : source.collectionId ≠ id) : db.Resembles (db.dropCollection id) source := by
  have hdropped : ∀ document ∈ db.documents, document.sourceId = source.id →
      document.sourceId ∉ (db.sourcesOf id).map Source.id := by
    intro document _ hid hmem
    obtain ⟨other, hother, hid'⟩ := List.mem_map.mp hmem
    obtain ⟨hother, hcollection⟩ := List.mem_filter.mp hother
    rw [Table.eq_of_key_eq hother hsource (hid'.trans hid)] at hcollection
    exact hkept (of_decide_eq_true hcollection)
  refine ⟨?_, ?_, ?_⟩
  · apply Table.filter_erase
    intro document hdocument hid
    exact hdropped document hdocument (of_decide_eq_true hid)
  · intro document hdocument hcollections
    obtain ⟨hmem, hid⟩ := List.mem_filter.mp hdocument
    have hdocuments : (db.dropDocuments ((db.sourcesOf id).map Source.id)).chunksOf document.id =
        db.chunksOf document.id := by
      apply Table.filter_erase
      intro chunk _ hof hdoomed
      obtain ⟨other, hother, hid'⟩ := List.mem_map.mp hdoomed
      obtain ⟨hother, hin⟩ := List.mem_filter.mp hother
      rw [Table.eq_of_key_eq hother hmem (hid'.trans (of_decide_eq_true hof))] at hin
      exact hdropped document hmem (of_decide_eq_true hid) (of_decide_eq_true hin)
    refine Eq.trans (Table.filter_erase ?_) hdocuments
    intro chunk hchunk hof hin
    have hchunk' : chunk ∈ db.chunksOf document.id := by
      rw [← hdocuments]
      exact List.mem_filter.mpr ⟨hchunk, hof⟩
    exact hkept ((hcollections chunk hchunk').symm.trans hin)
  · intro collection hcollection hid
    exact Table.mem_erase.mpr ⟨hcollection, fun h => hkept (hid.symm.trans h)⟩

theorem Settled.apply (h : db.Settled) (hintact : db.Intact) {e : Event} (henabled : e.Enabled db) :
    (e.apply db).Settled := by
  cases e with
  | addCollection collection =>
    intro source hsource
    refine (h source hsource).of_resembles ⟨rfl, fun _ _ _ => rfl, ?_⟩
    exact fun other hother _ => Table.subset_insert _ _ hother
  | addBatch batch =>
    intro source hsource
    exact (h source hsource).of_resembles ⟨rfl, fun _ _ _ => rfl, fun _ hother _ => hother⟩
  | addSource source =>
    refine h.of_agreesOff (.addSource db source) rfl
      ((Table.mem_insert henabled.1).mpr (Or.inr rfl)) rfl ?_
    exact settles_pending henabled.2.1 (documentsOf_fresh hintact henabled.1)
  | reopen source assigned =>
    obtain ⟨hsource, hadmits, _, hid, _⟩ := henabled
    have hagrees := (AgreesOff.dropDocuments db source.id).trans (.putSource _ hid)
    have hdropped : source ∈ (db.dropDocuments [source.id]).sources := hsource
    refine h.of_agreesOff hagrees rfl (mem_putSource hdropped hid.symm) hid ?_
    apply settles_pending hadmits
    rw [hid]
    exact documentsOf_dropDocuments db source.id
  | assignBatch source batchId =>
    obtain ⟨hsource, hadmits, _⟩ := henabled
    have hput : source.withBatch batchId ∈ (db.putSource (source.withBatch batchId)).sources :=
      mem_putSource hsource rfl
    refine h.of_agreesOff (.putSource db rfl) rfl hput rfl ?_
    have hempty := (h source hsource).documentsOf_eq_nil hadmits.pending hadmits.deletedAt
    exact settles_pending ⟨hadmits.pending, hadmits.errorMessage, hadmits.deletedAt⟩ hempty.2
  | complete source collection out =>
    have hput : source.withStatus .completed ∈ (db.complete source out).sources :=
      mem_putSource henabled.1 rfl
    refine h.of_agreesOff (.complete henabled) rfl hput rfl ?_
    intro hlive
    obtain ⟨herror, hempty⟩ := (h source henabled.1).documentsOf_eq_nil henabled.2.1 hlive
    exact ⟨herror, out.document, embodies_complete henabled hintact hempty⟩
  | fail source errorMessage =>
    obtain ⟨hsource, hpending, _⟩ := henabled
    have hput : source.fail errorMessage ∈ (db.putSource (source.fail errorMessage)).sources :=
      mem_putSource hsource rfl
    refine h.of_agreesOff (.putSource db rfl) rfl hput rfl ?_
    intro hlive
    exact ⟨Option.some_ne_none errorMessage,
      ((h source hsource).documentsOf_eq_nil hpending hlive).2⟩
  | remove source deletedAt =>
    have hput : source.softDelete deletedAt ∈ (db.removeSource source deletedAt).sources :=
      mem_putSource henabled rfl
    exact h.of_agreesOff (.removeSource db source deletedAt) rfl hput rfl
      (settles_softDelete (h source henabled) deletedAt)
  | dropCollection id =>
    intro source hsource
    obtain ⟨old, hold, hkept, rfl⟩ := mem_sources_dropCollection.mp hsource
    exact (h old hold).of_resembles (resembles_dropCollection hold hkept)

theorem Settled.empty (users : List Uuid) : (Database.empty users).Settled :=
  fun _ hsource => absurd hsource (Table.not_mem_empty _)

theorem Settled.play (h : db.Settled) (hintact : db.Intact) {events : List Event}
    (hadmissible : Event.Admissible events db) : (Event.play events db).Settled := by
  have hboth : (Event.play events db).Intact ∧ (Event.play events db).Settled :=
    @History.preserved Database Event Event.apply Event.Enabled (fun db => db.Intact ∧ db.Settled)
      (fun e db hinv henabled => ⟨hinv.1.apply henabled, hinv.2.apply hinv.1 henabled⟩)
      events db ⟨hintact, h⟩ hadmissible
  exact hboth.2

end Database

theorem Operation.performAll_settled (users : List Uuid) (ops : List Operation) :
    (∀ a ∈ (performAll ops (.empty users)).database.sources,
      ∀ b ∈ (performAll ops (.empty users)).database.sources,
        a.collectionId = b.collectionId → a.contentHash = b.contentHash → a = b) ∧
      (∀ refusal ∈ (performAll ops (.empty users)).refused,
        refusal ≠ .violates .uqSourcesCollectionContentHash) ∧
      ∀ source ∈ (performAll ops (.empty users)).database.sources,
        (performAll ops (.empty users)).database.Settles source := by
  let inv : Server → Prop := fun server =>
    server.database.Settled ∧ ∀ refusal ∈ server.refused, ¬ refusal.duplicatesContent
  have hstep : ∀ server op, server.Sound → inv server → True → inv (perform op server) := by
    intro server op hsound hinv _
    obtain ⟨events, hfollows⟩ := follows hsound op
    constructor
    · rw [hfollows.database]
      exact hinv.1.play hsound.intact hfollows.admissible
    · intro refusal hrefusal
      rcases hfollows.refused refusal hrefusal with hold | hother
      · exact hinv.2 refusal hold
      · exact hother
  have hempty : inv (.empty users) := ⟨.empty users, fun _ h => absurd h List.not_mem_nil⟩
  have hany : History.Admissible perform (fun _ _ => True) ops (.empty users) :=
    .of_forall (fun _ _ _ => trivial) _
  obtain ⟨hsound, hsettled, hrefused⟩ :=
    performAll_invariant (fun _ _ => True) hstep (.empty users) hempty hany
  exact ⟨hsound.intact.contents, hrefused, hsettled⟩

end YCStudio
