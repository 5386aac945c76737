import YCStudio.Consistency.SourceRows

namespace YCStudio

variable {P : Str → Prop}

def Event.Names (P : Str → Prop) : Event → Prop
  | addSource source => P source.filename
  | reopen source assigned => assigned.filename = source.filename ∨ P assigned.filename
  | _ => True

theorem Event.Names.maintains {e : Event} (h : e.Names P) : e.Maintains fun row => P row.filename := by
  intro db henabled hrows row hput
  cases e with
  | addCollection collection => exact hput.elim
  | addBatch batch => exact hput.elim
  | addSource source =>
    obtain rfl : row = source := hput
    exact h
  | reopen source assigned =>
    obtain rfl : row = assigned := hput
    exact h.elim (fun hsame => hsame ▸ hrows source henabled.1) id
  | assignBatch source batchId =>
    obtain rfl : row = source.withBatch batchId := hput
    exact hrows source henabled.1
  | complete source collection out =>
    obtain rfl : row = source.withStatus .completed := hput
    exact hrows source henabled.1
  | fail source errorMessage =>
    obtain rfl : row = source.fail errorMessage := hput
    exact hrows source henabled.1
  | remove source deletedAt =>
    obtain rfl : row = source.softDelete deletedAt := hput
    exact hrows source henabled
  | dropCollection id =>
    obtain ⟨old, hold, rfl⟩ := hput
    exact hrows old hold

def SeedTree.Names (P : Str → Prop) (tree : SeedTree) : Prop :=
  ∀ library ∈ publicLibraries, ∀ entries ∈ tree library.directory, ∀ entry ∈ entries,
    P entry.relativePath

def Operation.Names (P : Str → Prop) : Operation → Prop
  | ingestPrivateUpload _ _ _ _ filename _ _ => P filename
  | createPendingBatch _ _ _ _ _ uploads => ∀ upload ∈ uploads, P upload.filename
  | seedPublicLibraries _ tree => tree.Names P
  | _ => True

def Request.Names (P : Str → Prop) (request : Request) : Prop := request.service.Names P

section Steps

variable {rt : Runtime} {db : Database}

theorem admission_names {existing : Option Source} {collectionId : Uuid} {filename : Str}
    (h : P filename) (contentHash : Str) (dirPath : Option Str) (id : Uuid) (now : Timestamp) :
    (admission existing
      (admitted existing collectionId filename contentHash dirPath id now)).Names P := by
  cases existing with
  | none => exact h
  | some existing => exact Or.inr h

theorem UploadStep.names {user collectionId : Uuid} {filename : Str} {fileBytes : Bytes}
    {metadata : List (Str × Str)} {result : Except Exn IngestResult} {events : List Event}
    (h : UploadStep rt db user collectionId filename fileBytes metadata result events)
    (hname : P filename) : ∀ e ∈ events, e.Names P := by
  cases h with
  | refused => exact fun _ he => absurd he List.not_mem_nil
  | skipped => exact fun _ he => absurd he List.not_mem_nil
  | attempted hcollection howned hexisting hadmissible hsource =>
    subst hsource
    exact forall_settled (List.forall_mem_singleton.mpr (admission_names hname _ _ _ _))
      (fun _ _ => trivial) fun _ => trivial

theorem Adoption.names {batch : IngestBatch} {upload : PendingUpload} {source : Source}
    {events : List Event} (h : Adoption rt batch db upload source events)
    (hname : P upload.filename) : ∀ e ∈ events, e.Names P := by
  cases h with
  | added => exact List.forall_mem_singleton.mpr hname
  | reopened => exact List.forall_mem_cons.mpr ⟨Or.inr hname, List.forall_mem_singleton.mpr trivial⟩

theorem Adoptions.names {batch : IngestBatch} {uploads : List PendingUpload}
    {sources : List Source} {groups : List (List Event)}
    (h : Adoptions rt batch db uploads sources groups) (hnames : ∀ upload ∈ uploads, P upload.filename) :
    ∀ e ∈ groups.flatten, e.Names P := by
  induction h with
  | nil => exact fun _ he => absurd he List.not_mem_nil
  | cons head tail ih =>
    obtain ⟨hhead, hrest⟩ := List.forall_mem_cons.mp hnames
    intro e he
    rcases List.mem_append.mp he with he | he
    · exact head.names hhead e he
    · exact ih hrest e he

theorem readLibraryFiles_paths {tree : SeedTree} {library : SeedLibrary} {files : List SeedFile}
    (h : readLibraryFiles rt tree library = .ok files) {file : SeedFile} (hfile : file ∈ files) :
    ∃ entries ∈ tree library.directory, ∃ entry ∈ entries,
      entry.relativePath = file.relativePath := by
  rw [readLibraryFiles] at h
  split at h
  · cases h
  · next entries hentries =>
    rw [readSeedFiles_eq_ok h, List.reverse_nil, List.nil_append] at hfile
    obtain ⟨entry, hentry, rfl⟩ := List.mem_map.mp hfile
    have hmem := (List.mem_insertionSort pathOrder).mp (List.mem_of_mem_filter hentry)
    exact ⟨entries, hentries, entry, hmem, rfl⟩

theorem SeedStep.names {collection : Collection} {file : SeedFile} {existing : Option Source}
    {r : Except Exn SeedOutcome} {events : List Event}
    (h : SeedStep rt db collection file existing r events) (hname : P file.relativePath) :
    ∀ e ∈ events, e.Names P := by
  cases h with
  | created => exact List.forall_mem_cons.mpr ⟨hname, List.forall_mem_singleton.mpr trivial⟩
  | updated => exact List.forall_mem_cons.mpr ⟨Or.inl rfl, List.forall_mem_singleton.mpr trivial⟩
  | _ => exact fun _ he => absurd he List.not_mem_nil

theorem LibraryStep.names {tree : SeedTree} {library : SeedLibrary}
    (hlibrary : library ∈ publicLibraries) {r : Except Exn (Bool × List SeedOutcome)}
    {events : List Event} (h : LibraryStep rt tree library db r events) (hnames : tree.Names P) :
    ∀ e ∈ events, e.Names P := by
  cases h with
  | @seeded files _ _ _ _ _ _ hfiles hcollection hdict hsteps =>
    have hpaths : ∀ file ∈ files, P file.relativePath := by
      intro file hfile
      obtain ⟨entries, hentries, entry, hentry, hpath⟩ := readLibraryFiles_paths hfiles hfile
      exact hpath ▸ hnames library hlibrary entries hentries entry hentry
    intro e he
    rcases List.mem_append.mp he with he | he
    · cases hcollection with
      | existing => exact absurd he List.not_mem_nil
      | created =>
        rw [List.mem_singleton.mp he]
        exact trivial
    · exact hsteps.forall_mem (fun _ file hfile _ _ hstep => hstep.names (hpaths file hfile)) e he
  | _ => exact fun _ he => absurd he List.not_mem_nil

theorem WorkStep.names {files : Files} {sourceId : Uuid} {events : List Event}
    (h : WorkStep rt db files sourceId events) (P : Str → Prop) : ∀ e ∈ events, e.Names P := by
  cases h with
  | idle => exact fun _ he => absurd he List.not_mem_nil
  | failed => exact List.forall_mem_singleton.mpr trivial
  | ingested => exact List.forall_mem_singleton.mpr trivial

theorem Operation.Step.names {server : Server} {op : Operation} {events : List Event}
    (h : Operation.Step server op events) (hnames : op.Names P) : ∀ e ∈ events, e.Names P := by
  cases h with
  | idle => exact fun _ he => absurd he List.not_mem_nil
  | created => exact List.forall_mem_singleton.mpr trivial
  | uploaded hresult hstep => exact hstep.names hnames
  | batched hresult haccepted =>
    exact List.forall_mem_cons.mpr ⟨trivial, haccepted.adoptions.names hnames⟩
  | worked hstep => exact hstep.names P
  | removed => exact List.forall_mem_singleton.mpr trivial
  | dropped => exact List.forall_mem_singleton.mpr trivial
  | seeded hrun =>
    exact hrun.forall_mem fun _ library hlibrary _ _ hstep => hstep.names hlibrary hnames

end Steps

namespace Request

variable {server : Server} {request : Request}

theorem Stores.names {events : List Event} {originals : List Original}
    (h : Stores server request events originals) (hnames : request.Names P) :
    ∀ e ∈ events, e.Names P := by
  cases h with
  | kept hstep => exact hstep.names hnames
  | uploaded hcollection howned hexisting hsource =>
    subst hsource
    exact List.forall_mem_cons.mpr
      ⟨admission_names hnames _ _ _ _, List.forall_mem_singleton.mpr trivial⟩
  | saved haccepted =>
    exact List.forall_mem_cons.mpr ⟨trivial, haccepted.adoptions.names hnames⟩
  | undone => exact fun _ he => absurd he List.not_mem_nil

theorem performAll_named (users : List Uuid) {requests : List Request}
    (hnames : ∀ request ∈ requests, request.Names P) :
    ∀ source ∈ (performAll requests (.empty users)).database.sources, P source.filename :=
  performAll_sources (Names P) (fun _ _ _ _ hstores hnames e he => (hstores.names hnames e he).maintains)
    users hnames

end Request

section Files

variable {Q : Bytes → Prop}

def KeptByPrefixes (Q : Bytes → Prop) : Prop := ∀ content count, Q content → Q (content.take count)

def Original.Fits (P : Str → Prop) (Q : Bytes → Prop) (original : Original) : Prop :=
  (∃ filename, P filename ∧ original.1.2 = purePathName filename) ∧ Q original.2

def FitAll (P : Str → Prop) (Q : Bytes → Prop) (originals : List Original) : Prop :=
  ∀ original ∈ originals, original.Fits P Q

theorem Files.fits_receive (hprefixes : KeptByPrefixes Q) {files : Files} {fault : Option SaveFault}
    {original : Original} (h : FitAll P Q files) (horiginal : original.Fits P Q) :
    FitAll P Q (files.receive fault original.1 original.2) := by
  intro entry hentry
  rcases mem_receive hentry with hold | ⟨hpath, hcontent⟩
  · exact h entry hold
  · refine ⟨hpath ▸ horiginal.1, ?_⟩
    rcases hcontent with hcontent | ⟨broken, _, hleaves⟩
    · exact hcontent ▸ horiginal.2
    · obtain ⟨count, _, hleft⟩ := Option.map_eq_some_iff.mp hleaves
      exact hleft ▸ hprefixes _ count horiginal.2

theorem Files.fits_receiveAll (hprefixes : KeptByPrefixes Q) {fault : Nat → Option SaveFault}
    {index : Nat} {originals : List Original} {files : Files} (h : FitAll P Q files)
    (horiginals : FitAll P Q originals) :
    FitAll P Q (files.receiveAll fault index originals) := by
  induction originals generalizing index files with
  | nil => exact h
  | cons original rest ih =>
    obtain ⟨hhead, hrest⟩ := List.forall_mem_cons.mp horiginals
    have hreceived : FitAll P Q (files.receive (fault index) original.1 original.2) :=
      fits_receive hprefixes h hhead
    rw [receiveAll]
    split
    · exact ih hreceived hrest
    · exact hreceived

namespace Request

variable {server : Server} {request : Request}

def Hands (P : Str → Prop) (Q : Bytes → Prop) : Request → Prop
  | uploadFile _ _ _ _ filename fileBytes _ => P filename ∧ Q fileBytes
  | operation (.createPendingBatch _ _ _ _ _ uploads) =>
      ∀ upload ∈ uploads, P upload.filename ∧ Q upload.fileBytes
  | operation _ => True

theorem Stores.fits {events : List Event} {originals : List Original}
    (h : Stores server request events originals) (hhands : request.Hands P Q) :
    FitAll P Q originals := by
  have hpending : ∀ {rt : Runtime} {batch : IngestBatch} {db : Database}
      {uploads : List PendingUpload} {sources : List Source} {groups : List (List Event)},
      Adoptions rt batch db uploads sources groups →
      (∀ upload ∈ uploads, P upload.filename ∧ Q upload.fileBytes) →
      FitAll P Q (originalsOf sources uploads) := by
    intro rt batch db uploads sources groups hadoptions hall original horiginal
    obtain ⟨pair, hpair, rfl⟩ := mem_originalsOf.mp horiginal
    obtain ⟨hname, hcontent⟩ := hall pair.2 (List.of_mem_zip hpair).2
    refine ⟨⟨pair.2.filename, hname, ?_⟩, hcontent⟩
    rw [(hadoptions.pairs pair hpair).2.1]
  cases h with
  | kept => exact fun _ h => absurd h List.not_mem_nil
  | uploaded => exact List.forall_mem_singleton.mpr ⟨⟨_, hhands.1, rfl⟩, hhands.2⟩
  | saved haccepted => exact hpending haccepted.adoptions hhands
  | undone haccepted => exact hpending haccepted.adoptions hhands

theorem performAll_fits (hprefixes : KeptByPrefixes Q) (users : List Uuid)
    {requests : List Request} (hhands : ∀ request ∈ requests, request.Hands P Q) :
    FitAll P Q (performAll requests (.empty users)).files := by
  have hallowed : History.Admissible perform (fun request _ => request.Hands P Q) requests
      (.empty users) := .of_forall (fun request hrequest _ => hhands request hrequest) _
  have hstep : ∀ (server : Server) (request : Request), server.Sound →
      FitAll P Q server.files → request.Hands P Q → FitAll P Q (request.perform server).files := by
    intro server request hsound hfits hrequest
    obtain ⟨events, _, hfiles, hstores⟩ := steps hsound request
    rw [hfiles]
    exact Files.fits_receiveAll hprefixes hfits (hstores.fits hrequest)
  have hempty : FitAll P Q (Server.empty users).files :=
    fun _ h => absurd h List.not_mem_nil
  exact (performAll_invariant (fun request _ => request.Hands P Q) hstep (.empty users) hempty
    hallowed).2

end Request

end Files

end YCStudio
