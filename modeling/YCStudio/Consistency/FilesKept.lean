import YCStudio.Consistency.Operations

namespace YCStudio

open Script

def Op.KeepsFiles : Op → Prop
  | saveFile _ _ _ _ => False
  | _ => True

abbrev KeepsFiles {α : Type} (program : Program α) : Prop := program.Asks Op.KeepsFiles

theorem serve_files {op : Op} (h : op.KeepsFiles) (w : World) : (serve op w).2.files = w.files := by
  cases op with
  | saveFile fault sourceId name content => exact h.elim
  | flush fault writes =>
    simp only [serve]
    split <;> rfl
  | execute write =>
    simp only [serve]
    split
    · rfl
    · split <;> rfl
  | commit =>
    simp only [serve]
    split <;> rfl
  | readFile fault sourceId name =>
    simp only [serve]
    split <;> rfl
  | _ => rfl

theorem KeepsFiles.files {α : Type} {program : Program α} (h : KeepsFiles program) (w : World) :
    (exec program w).2.files = w.files := by
  have hserve : ∀ op w', op.KeepsFiles → w'.files = w.files → (serve op w').2.files = w.files :=
    fun _ w' hop hfiles => (serve_files hop w').trans hfiles
  exact Asks.invariant hserve h rfl

theorem KeepsFiles.transact {α : Type} {program : Program α} (h : KeepsFiles program)
    (server : Server) : (transact program server).2.files = server.files := h.files server.connect

theorem keepsFiles_allows : Op.AllowsIngest Op.KeepsFiles where
  newId := trivial
  newIds _ := trivial
  now := trivial
  select _ := trivial
  flush _ _ := trivial
  execute _ := trivial
  beginNested := trivial
  savepointIsActive := trivial
  savepointRollback := trivial
  savepointCommit := trivial

section Requests

variable (rt : Runtime)

theorem keepsFiles_ownedPrivateCollection (user collectionId : Uuid) (kind : CollectionKind) :
    KeepsFiles (ownedPrivateCollection user collectionId kind) := by
  refine asks_bind (asks_perform trivial) fun collection => ?_
  split
  · exact asks_throw _
  · exact asks_ite (asks_throw _) (asks_ite (asks_throw _) (asks_pure _))

theorem keepsFiles_ingestPrivateUpload (user collectionId : Uuid) (kind : CollectionKind)
    (filename : Str) (fileBytes : Bytes) (metadata : List (Str × Str)) :
    KeepsFiles (ingestPrivateUpload rt user collectionId kind filename fileBytes metadata) := by
  refine asks_bind (keepsFiles_ownedPrivateCollection _ _ _) fun _ => ?_
  have hingest := asks_ingestDocument keepsFiles_allows rt collectionId filename fileBytes none
    (some metadata) none
  refine asks_bind (asks_recover hingest fun e => ?_) fun _ => ?_
  · exact asks_bind (asks_perform trivial) fun _ => asks_throw _
  · exact asks_bind (asks_perform trivial) fun _ => asks_pure _

theorem keepsFiles_flushPending (fault : Option Exn) (pending : List Write) :
    KeepsFiles (flushPending fault pending) := asks_ite (asks_pure _) (asks_perform trivial)

theorem keepsFiles_admitUpload (batch : IngestBatch) (upload : PendingUpload) (contentHash : Str)
    (dirPath : Option Str) : KeepsFiles (admitUpload rt batch upload contentHash dirPath) := by
  refine asks_bind (asks_perform trivial) fun existing => ?_
  split
  · refine asks_bind (asks_perform trivial) fun _ => ?_
    exact asks_bind (asks_perform trivial) fun _ => asks_pure _
  · refine asks_ite ?_ (asks_throw _)
    exact asks_bind (asks_resetSourceForReingest keepsFiles_allows _ _ _ _) fun _ => asks_pure _

theorem keepsFiles_admitUploads (batch : IngestBatch) (index : Nat) (seenHashes : List Str)
    (pending : List Write) (uploads : List PendingUpload) :
    KeepsFiles (admitUploads rt batch index seenHashes pending uploads) := by
  induction uploads generalizing index seenHashes pending with
  | nil => exact asks_bind (keepsFiles_flushPending _ _) fun _ => asks_pure _
  | cons upload uploads ih =>
    rw [admitUploads]
    refine asks_ite (asks_bind (asks_throw _) fun _ => ?_) ?_
    all_goals
      refine asks_bind (asks_attempt _) fun _ => ?_
      refine asks_bind (keepsFiles_flushPending _ _) fun _ => ?_
      refine asks_bind (keepsFiles_admitUpload _ _ _ _ _) fun _ => ?_
      exact asks_bind (ih _ _ _) fun _ => asks_pure _

theorem keepsFiles_createPendingBatch (user collectionId : Uuid) (kind : CollectionKind)
    (metadata : List (Str × Str)) (uploads : List PendingUpload) :
    KeepsFiles (createPendingBatch rt user collectionId kind metadata uploads) := by
  refine asks_bind (keepsFiles_ownedPrivateCollection _ _ _) fun _ => ?_
  refine asks_bind (asks_perform trivial) fun _ => asks_bind (asks_perform trivial) fun _ => ?_
  exact asks_bind (keepsFiles_admitUploads _ _ _ _ _ _) fun _ => asks_pure _

theorem keepsFiles_createKbCollection (user : Uuid) (kind : CollectionKind) (name : Str) :
    KeepsFiles (createKbCollection rt user kind name) := by
  refine asks_bind (asks_bind (asks_perform trivial) fun _ => ?_) fun _ => ?_
  · refine asks_bind (asks_recover (asks_perform trivial) fun e => ?_) fun _ => asks_pure _
    split
    · exact asks_bind (asks_perform trivial) fun _ => asks_throw _
    · exact asks_throw _
  · exact asks_bind (asks_perform trivial) fun _ => asks_pure _

theorem keepsFiles_deleteSource (user sourceId : Uuid) :
    KeepsFiles (deleteSource rt user sourceId) := by
  refine asks_bind (asks_perform trivial) fun source => ?_
  split
  · exact asks_throw _
  · refine asks_bind (asks_perform trivial) fun collection => ?_
    split
    · exact asks_throw _
    · refine asks_bind (asks_perform trivial) fun _ => ?_
      refine asks_ite (asks_bind (asks_perform trivial) fun _ => ?_) ?_
      all_goals
        refine asks_bind (asks_perform trivial) fun _ => ?_
        exact asks_bind (asks_perform trivial) fun _ => asks_perform trivial

theorem keepsFiles_deleteCollection (user collectionId : Uuid) :
    KeepsFiles (deleteCollection user collectionId) := by
  refine asks_bind (asks_perform trivial) fun collection => ?_
  split
  · exact asks_throw _
  · refine asks_ite (asks_throw _) ?_
    exact asks_bind (asks_perform trivial) fun _ => asks_perform trivial

theorem keepsFiles_ingestSource (sourceId : Uuid) : KeepsFiles (ingestSource rt sourceId) := by
  refine asks_bind (asks_perform trivial) fun source => ?_
  split
  · exact asks_pure _
  · refine asks_ite (asks_pure _) ?_
    refine asks_bind (asks_perform trivial) fun batch => ?_
    refine asks_bind (asks_perform trivial) fun collection => ?_
    split
    · refine asks_bind (asks_recover ?_ fun e => ?_) fun result => ?_
      · refine asks_bind (asks_perform trivial) fun _ => ?_
        exact asks_bind (asks_ingestPendingSource keepsFiles_allows _ _ _ _ _) fun _ => asks_pure _
      · refine asks_bind (asks_perform trivial) fun _ => ?_
        exact asks_bind (asks_perform trivial) fun _ => asks_pure _
      · split
        · exact asks_pure _
        · exact asks_bind (asks_perform trivial) fun _ => asks_pure _
    · refine asks_bind (asks_perform trivial) fun _ => ?_
      exact asks_bind (asks_perform trivial) fun _ => asks_pure _

end Requests

section Seeding

variable (rt : Runtime)

theorem keepsFiles_ensureContentHashIsAvailable (collectionId : Uuid) (contentHash : Str)
    (excludingSourceId : Option Uuid) :
    KeepsFiles (ensureContentHashIsAvailable collectionId contentHash excludingSourceId) := by
  refine asks_bind (asks_perform trivial) fun existing => ?_
  split
  · exact asks_pure _
  · exact asks_throw _

theorem keepsFiles_getOrCreatePublicCollection (library : SeedLibrary) :
    KeepsFiles (getOrCreatePublicCollection rt library) := by
  refine asks_bind (asks_perform trivial) fun collection => ?_
  split
  · exact asks_ite (asks_throw _) (asks_pure _)
  · refine asks_bind (asks_perform trivial) fun _ => ?_
    exact asks_bind (asks_perform trivial) fun _ => asks_pure _

theorem keepsFiles_seedFile (collection : Collection) (source : Option Source) (file : SeedFile) :
    KeepsFiles (seedFile rt collection source file) := by
  cases source with
  | none =>
    refine asks_bind (keepsFiles_ensureContentHashIsAvailable _ _ _) fun _ => ?_
    refine asks_bind (asks_ingestDocument keepsFiles_allows _ _ _ _ _ _ _) fun _ => ?_
    exact asks_ite (asks_throw _) (asks_pure _)
  | some source =>
    refine asks_ite (asks_pure _) ?_
    refine asks_bind (keepsFiles_ensureContentHashIsAvailable _ _ _) fun _ => ?_
    refine asks_bind (asks_perform trivial) fun _ => asks_bind (asks_perform trivial) fun _ => ?_
    exact asks_bind (asks_ingestPendingSource keepsFiles_allows _ _ _ _ _) fun _ => asks_pure _

theorem keepsFiles_seedFiles (collection : Collection) (dict : List (Str × Source))
    (files : List SeedFile) : KeepsFiles (seedFiles rt collection dict files) := by
  induction files with
  | nil => exact asks_pure _
  | cons file files ih =>
    exact asks_bind (keepsFiles_seedFile _ _ _ _) fun _ => asks_bind ih fun _ => asks_pure _

theorem keepsFiles_seedLibrary (tree : SeedTree) (library : SeedLibrary) :
    KeepsFiles (seedLibrary rt tree library) := by
  refine asks_bind (asks_attempt _) fun _ => ?_
  refine asks_bind (keepsFiles_getOrCreatePublicCollection _ _) fun _ => ?_
  refine asks_bind (asks_perform trivial) fun _ => asks_bind (asks_attempt _) fun _ => ?_
  exact asks_bind (keepsFiles_seedFiles _ _ _ _) fun _ => asks_pure _

theorem keepsFiles_runSeedCommand (tree : SeedTree) : KeepsFiles (runSeedCommand rt tree) := by
  have hlibraries : ∀ libraries, KeepsFiles (seedLibraries rt tree libraries) := by
    intro libraries
    induction libraries with
    | nil => exact asks_pure _
    | cons library libraries ih =>
      exact asks_bind (keepsFiles_seedLibrary _ _ _) fun _ => asks_bind ih fun _ => asks_pure _
  refine asks_bind (asks_bind (hlibraries _) fun _ => asks_pure _) fun _ => ?_
  exact asks_bind (asks_perform trivial) fun _ => asks_pure _

end Seeding

end YCStudio
