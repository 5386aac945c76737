import YCStudio.Consistency.Locality
import YCStudio.Consistency.Uploads
import YCStudio.Services.PublicSeed

namespace YCStudio

def Runtime.NeverFails (rt : Runtime) : Prop :=
  (∀ filename point, rt.flushFault filename point = none) ∧
    ∀ source collection filename fileBytes metadata countTokens documentId createdAt,
      isWholeDocumentKind collection.kind → ∃ out,
        Pipeline.outcome rt source collection filename fileBytes metadata countTokens documentId
          createdAt = .ok out

def contentTaken (existing : Str) : Exn :=
  seedConfiguration ("Seed content duplicates existing source ".toList ++ pyRepr existing ++
    " in this public collection.".toList)

def seedSource (rt : Runtime) (collection : Collection) (file : SeedFile) (id : Uuid)
    (createdAt : Timestamp) : Source :=
  newSource collection.id none file.relativePath (computeContentHash rt file.content) none id
    createdAt

inductive SeedStep (rt : Runtime) (db : Database) (collection : Collection) (file : SeedFile) :
    Option Source → Except Exn SeedOutcome → List Event → Prop
  | unchanged {source : Source} (hcurrent : isUpToDate source file) :
      SeedStep rt db collection file (some source) (.ok .unchanged) []
  | taken {source : Option Source} {existing : Str} (hstale : ∀ s ∈ source, ¬ isUpToDate s file)
      (hanswer : Query.answer db
        (.filenameByHash collection.id file.contentHash (source.map Source.id)) = some existing) :
      SeedStep rt db collection file source (.error (contentTaken existing)) []
  | created {id : Uuid} {createdAt : Timestamp} {documentId : Uuid} {out : Ingested}
      (hanswer : Query.answer db (.filenameByHash collection.id file.contentHash none) = none)
      (houtcome : Pipeline.outcome rt (seedSource rt collection file id createdAt) collection
        file.relativePath file.content (some (seedMetadata file)) none documentId createdAt = .ok out)
      (hadmissible : Event.Admissible [.addSource (seedSource rt collection file id createdAt),
        .complete (seedSource rt collection file id createdAt) collection out] db) :
      SeedStep rt db collection file none (.ok .created)
        [.addSource (seedSource rt collection file id createdAt),
          .complete (seedSource rt collection file id createdAt) collection out]
  | updated {source : Source} {documentId : Uuid} {createdAt : Timestamp} {out : Ingested}
      (hstale : ¬ isUpToDate source file)
      (hanswer : Query.answer db
        (.filenameByHash collection.id file.contentHash (some source.id)) = none)
      (houtcome : Pipeline.outcome rt (source.reseed file.contentHash) collection source.filename
        file.content (some (seedMetadata file)) none documentId createdAt = .ok out)
      (hadmissible : Event.Admissible [.reopen source (source.reseed file.contentHash),
        .complete (source.reseed file.contentHash) collection out] db) :
      SeedStep rt db collection file (some source) (.ok .updated)
        [.reopen source (source.reseed file.contentHash),
          .complete (source.reseed file.contentHash) collection out]
  | failed {source : Option Source} {e : Exn} (hfails : ¬ rt.NeverFails) :
      SeedStep rt db collection file source (.error e) []

def World.Concludes {α : Type} (w w' : World) (events : List Event) : Except Exn α → Prop
  | .ok _ => w.Follows w' events
  | .error _ => w.Keeps w'

theorem Query.filenameByHash_eq_none {db : Database} {collectionId : Uuid} {contentHash : Str}
    {excluding : Option Uuid}
    (h : Query.answer db (.filenameByHash collectionId contentHash excluding) = none)
    {source : Source} (hsource : source ∈ db.sources) (hcollection : source.collectionId = collectionId)
    (hhash : source.contentHash = contentHash) : some source.id = excluding := by
  have hnone := List.find?_eq_none.mp (Option.map_eq_none_iff.mp h) source hsource
  by_contra hne
  simp [hcollection, hhash, hne] at hnone

theorem ensureContentHashIsAvailable_runs {w : World} (hactive : w.session.health = .active)
    (collectionId : Uuid) (contentHash : Str) (excluding : Option Uuid) :
    (∃ existing, Query.answer w.view (.filenameByHash collectionId contentHash excluding) =
        some existing ∧
      Runs (ensureContentHashIsAvailable collectionId contentHash excluding) w
        (.error (contentTaken existing)) w) ∨
    (Query.answer w.view (.filenameByHash collectionId contentHash excluding) = none ∧
      Runs (ensureContentHashIsAvailable collectionId contentHash excluding) w (.ok ()) w) := by
  have hselect := Runs.select hactive (.filenameByHash collectionId contentHash excluding)
  cases hanswer : Query.answer w.view (.filenameByHash collectionId contentHash excluding) with
  | some existing =>
    refine Or.inl ⟨existing, rfl, hselect.bind ?_⟩
    rw [hanswer]
    exact Runs.raise _
  | none =>
    refine Or.inr ⟨rfl, hselect.bind ?_⟩
    rw [hanswer]
    exact Runs.pure _

section File

variable {rt : Runtime} {w : World} (hready : w.Ready) {collection : Collection} {file : SeedFile}

include hready

theorem seedFile_creates (hkind : isWholeDocumentKind collection.kind)
    (hcollection : w.view.kbCollections.get? collection.id = some collection)
    (hhash : file.contentHash = computeContentHash rt file.content) :
    ∃ r w' events, Runs (seedFile rt collection none file) w r w' ∧
      SeedStep rt w.view collection file none r events ∧ w.Concludes w' events r := by
  rcases ensureContentHashIsAvailable_runs hready.active collection.id file.contentHash none with
    ⟨existing, hanswer, htaken⟩ | ⟨hanswer, havailable⟩
  · exact ⟨_, w, [], htaken.stop, .taken (fun _ h => nomatch h) hanswer,
      (World.Follows.refl hready).keeps⟩
  · have hexisting : Query.answer w.view
        (.sourceByHash collection.id (computeContentHash rt file.content)) = none := by
      cases hfound : Query.answer w.view
          (.sourceByHash collection.id (computeContentHash rt file.content)) with
      | none => rfl
      | some source =>
        obtain ⟨hmem, hcid, hsame⟩ := Query.sourceByHash_eq_some hfound
        cases Query.filenameByHash_eq_none hanswer hmem hcid (hsame.trans hhash.symm)
    cases hfault : admissionFault rt file.relativePath none with
    | some e =>
      obtain ⟨w', hruns, hlost⟩ := ingestDocument_lost hready rt file.relativePath file.content none
        (some (seedMetadata file)) none hexisting rfl hcollection hfault
      refine ⟨_, w', [], havailable.bind hruns.stop, .failed ?_, hlost.keeps⟩
      intro hnever
      cases (hnever.1 _ _).symm.trans hfault
    | none =>
      obtain ⟨w₁, hadmitted, hsettles⟩ := ingestDocument_settles hready rt file.relativePath
        file.content none (some (seedMetadata file)) none hexisting rfl hcollection hfault
      generalize houtcome : Pipeline.outcome rt _ collection file.relativePath file.content
        (some (seedMetadata file)) none _ _ = outcome at hsettles
      cases outcome with
      | ok out =>
        obtain ⟨hresult, hfollows⟩ := hsettles
        have hruns : Runs (ingestDocument rt collection.id file.relativePath file.content none
          (some (seedMetadata file)) none) w (.ok out.result) _ := Prod.ext hresult rfl
        exact ⟨_, _, _, havailable.bind (hruns.bind (Runs.pure _)), .created hanswer houtcome
          (hadmitted.trans hfollows).admissible, hadmitted.trans hfollows⟩
      | error failure =>
        have hfails : ¬ rt.NeverFails := by
          intro hnever
          obtain ⟨out, hout⟩ := hnever.2 _ collection file.relativePath file.content
            (some (seedMetadata file)) none _ _ hkind
          cases hout.symm.trans houtcome
        obtain ⟨⟨e, hresult⟩, hkeeps⟩ := hsettles.raises
        have hruns : Runs (ingestDocument rt collection.id file.relativePath file.content none
          (some (seedMetadata file)) none) w (.error e) _ := Prod.ext hresult rfl
        exact ⟨_, _, [], havailable.bind hruns.stop, .failed hfails, hadmitted.keeps_trans hkeeps⟩

theorem reseed_runs {source : Source} (hsource : source ∈ w.view.sources)
    (hcollection : source.collectionId = collection.id)
    (hanswer : Query.answer w.view
      (.filenameByHash collection.id file.contentHash (some source.id)) = none)
    (fault : Option Exn) :
    (∃ e w', fault = some e ∧
        Runs (flush fault [.updateSource source (source.reseed file.contentHash)]) w (.error e) w' ∧
        w.Keeps w') ∨
      ∃ w₁ w',
        Runs (flush fault [.updateSource source (source.reseed file.contentHash)]) w (.ok ()) w₁ ∧
        Runs (execute (.deleteDocuments source.id)) w₁ (.ok ()) w' ∧
        w.Follows w' [.reopen source (source.reseed file.contentHash)] := by
  let assigned := source.reseed file.contentHash
  cases fault with
  | some e =>
    have hlost : w.Lost ((w.advance [] 0).refuse []) := World.lost_refuse 0
    rw [World.advance_nil] at hlost
    exact Or.inl ⟨e, _, rfl, Runs.flushFault hready.active e _, hlost.keeps⟩
  | none =>
    have hcontent : ¬ w.view.sameContent assigned := by
      rintro ⟨other, hother, hne, hcid, hhash⟩
      have hsame := Query.filenameByHash_eq_none hanswer hother (hcid.trans hcollection) hhash
      exact hne (Option.some.inj hsame)
    have haccepted : w.view.firstRefusal [.updateSource source assigned] = none := by
      rw [Database.firstRefusal_singleton]
      exact Database.refusal_updateSource hsource (Or.inr hcontent) (Or.inl rfl)
    have hencodable : (Write.deleteDocuments source.id).Encodable := trivial
    have hactive : (w.advance [.updateSource source assigned] 0).session.health = .active :=
      hready.active
    have hput : w.view.apply (.updateSource source assigned) = w.view.putSource assigned :=
      Database.apply_updateSource hsource rfl rfl rfl
    have hview : (w.advance [.updateSource source assigned] 0).view = w.view.putSource assigned :=
      (World.view_advance _ _ _).trans hput
    have happly : w.view.applyAll ([.updateSource source assigned] ++
        [(w.advance [.updateSource source assigned] 0).view.resolve (.deleteDocuments source.id)]) =
          Event.apply (.reopen source assigned) w.view := by
      have hfirst : w.view.applyAll [.updateSource source assigned] = w.view.putSource assigned :=
        hput
      rw [Database.applyAll_append, hview, hfirst]
      exact Database.apply_resolve _ (.deleteDocuments source.id)
    refine Or.inr ⟨_, _, Runs.flush hready.active haccepted, Runs.execute hactive hencodable, ?_⟩
    rw [World.advance_advance]
    apply hready.follows happly
    · exact ⟨hsource, ⟨rfl, rfl, rfl⟩, hcontent, rfl, rfl, rfl⟩
    · exact fun _ h => absurd h List.not_mem_nil

theorem seedFile_updates (hkind : isWholeDocumentKind collection.kind)
    (hcollection : w.view.kbCollections.get? collection.id = some collection) {source : Source}
    (hsource : source ∈ w.view.sources) (hcid : source.collectionId = collection.id) :
    ∃ r w' events, Runs (seedFile rt collection (some source) file) w r w' ∧
      SeedStep rt w.view collection file (some source) r events ∧ w.Concludes w' events r := by
  by_cases hcurrent : isUpToDate source file = true
  · refine ⟨_, w, [], ?_, .unchanged hcurrent, .refl hready⟩
    simp only [seedFile, hcurrent, if_true]
    exact Runs.pure _
  · have hstale : ∀ s ∈ some source, ¬ isUpToDate s file := by
      intro s hs
      rw [← Option.some.inj hs]
      exact hcurrent
    simp only [seedFile, hcurrent]
    rcases ensureContentHashIsAvailable_runs hready.active collection.id file.contentHash
        (some source.id) with ⟨existing, hanswer, htaken⟩ | ⟨hanswer, havailable⟩
    · exact ⟨_, w, [], htaken.stop, .taken hstale hanswer, (World.Follows.refl hready).keeps⟩
    · rcases reseed_runs hready hsource hcid hanswer (rt.flushFault file.relativePath .reset) with
        ⟨e, w', hfault, hflush, hkeeps⟩ | ⟨w₁, w₂, hflush, hdelete, hadmitted⟩
      · refine ⟨.error e, w', [], havailable.bind hflush.stop, .failed ?_, hkeeps⟩
        intro hnever
        cases (hnever.1 _ _).symm.trans hfault
      · have hadmission : w.Follows w₂ [admission (some source) (source.reseed file.contentHash)] :=
          hadmitted
        obtain ⟨hmem, hadmits⟩ := hadmission.source_mem
        have hsettles := ingestPendingSource_settles hadmitted.ready hmem hadmits.pending
          (hadmission.kbCollections_eq ▸ (Table.get?_eq_some_iff.mp hcollection).1) hcid.symm rt
          file.content (seedMetadata file)
        generalize houtcome : Pipeline.outcome rt _ collection _ file.content
          (some (seedMetadata file)) none _ _ = outcome at hsettles
        cases outcome with
        | ok out =>
          obtain ⟨hresult, hfollows⟩ := hsettles
          have hruns : Runs (ingestPendingSource rt (source.reseed file.contentHash) collection
            file.content (seedMetadata file)) w₂ (.ok out.result) _ := Prod.ext hresult rfl
          exact ⟨.ok .updated, _, _, havailable.bind (hflush.bind (hdelete.bind (hruns.bind
            (Runs.pure _)))), .updated hcurrent hanswer houtcome (hadmitted.trans hfollows).admissible,
            hadmitted.trans hfollows⟩
        | error failure =>
          have hfails : ¬ rt.NeverFails := by
            intro hnever
            obtain ⟨out, hout⟩ := hnever.2 _ collection _ file.content (some (seedMetadata file))
              none _ _ hkind
            cases hout.symm.trans houtcome
          obtain ⟨⟨e, hresult⟩, hkeeps⟩ := hsettles.raises
          have hruns : Runs (ingestPendingSource rt (source.reseed file.contentHash) collection
            file.content (seedMetadata file)) w₂ (.error e) _ := Prod.ext hresult rfl
          exact ⟨.error e, _, [], havailable.bind (hflush.bind (hdelete.bind hruns.stop)),
            .failed hfails, hadmitted.keeps_trans hkeeps⟩

end File

theorem SeedStep.admissible {rt : Runtime} {db : Database} {collection : Collection}
    {file : SeedFile} {source : Option Source} {r : Except Exn SeedOutcome} {events : List Event}
    (h : SeedStep rt db collection file source r events) : Event.Admissible events db := by
  cases h with
  | created hanswer houtcome hadmissible => exact hadmissible
  | updated hstale hanswer houtcome hadmissible => exact hadmissible
  | _ => trivial

theorem SeedStep.kbCollections_eq {rt : Runtime} {db : Database} {collection : Collection}
    {file : SeedFile} {source : Option Source} {r : Except Exn SeedOutcome} {events : List Event}
    (h : SeedStep rt db collection file source r events) :
    (Event.play events db).kbCollections = db.kbCollections := by
  cases h <;> rfl

theorem SeedStep.other_mem {rt : Runtime} {db : Database} {collection : Collection}
    {file : SeedFile} {source : Option Source} {r : Except Exn SeedOutcome} {events : List Event}
    (h : SeedStep rt db collection file source r events)
    (hadmissible : Event.Admissible events db) {other : Source} (hother : other ∈ db.sources)
    (hne : ∀ s ∈ source, s.id ≠ other.id) : other ∈ (Event.play events db).sources := by
  have hget : ∀ {sourceId : Uuid}, sourceId ≠ other.id →
      (∀ e ∈ events, e.sourceId = some sourceId) → other ∈ (Event.play events db).sources := by
    intro sourceId hdiffers hevents
    have hagrees := Database.AgreesOff.play hadmissible hevents
    have hsame := hagrees.sources other.id hdiffers.symm
    rw [Table.get?_key hother] at hsame
    exact (Table.get?_eq_some_iff.mp hsame).1
  cases h with
  | unchanged hcurrent => exact hother
  | taken hstale hanswer => exact hother
  | failed hfails => exact hother
  | created hanswer houtcome hadmissible =>
    refine hget (Ne.symm (hadmissible.1.1 other hother)) ?_
    intro e he
    rcases List.mem_cons.mp he with rfl | he
    · rfl
    · rw [List.mem_singleton.mp he]
      rfl
  | updated hstale hanswer houtcome hadmissible =>
    refine hget (hne _ rfl) ?_
    intro e he
    rcases List.mem_cons.mp he with rfl | he
    · rfl
    · rw [List.mem_singleton.mp he]
      rfl

abbrev SeedSteps (rt : Runtime) (collection : Collection) (dict : List (Str × Source)) :
    Database → List SeedFile → Except Exn (List SeedOutcome) → List Event → Prop :=
  History.Sweep Event.apply fun db file =>
    SeedStep rt db collection file (dict.lookup file.relativePath)

def Indexes (dict : List (Str × Source)) (db : Database) (collectionId : Uuid)
    (paths : List Str) : Prop :=
  ∀ path ∈ paths, ∀ source, dict.lookup path = some source →
    source ∈ db.sources ∧ source.filename = path ∧ source.collectionId = collectionId

theorem seedFiles_runs {rt : Runtime} {collection : Collection}
    (hkind : isWholeDocumentKind collection.kind) {dict : List (Str × Source)}
    {files : List SeedFile} (hpaths : (files.map SeedFile.relativePath).Nodup)
    (hhashes : ∀ file ∈ files, file.contentHash = computeContentHash rt file.content)
    {w : World} (hready : w.Ready)
    (hcollection : w.view.kbCollections.get? collection.id = some collection)
    (hindex : Indexes dict w.view collection.id (files.map SeedFile.relativePath)) :
    ∃ r w' events, Runs (seedFiles rt collection dict files) w r w' ∧
      SeedSteps rt collection dict w.view files r events ∧ w.Concludes w' events r := by
  induction files generalizing w with
  | nil => exact ⟨_, w, [], Runs.pure [], .nil, .refl hready⟩
  | cons file files ih =>
    obtain ⟨hnew, hpaths⟩ := List.nodup_cons.mp hpaths
    obtain ⟨hhash, hhashes⟩ := List.forall_mem_cons.mp hhashes
    have hstep : ∃ r w' events,
        Runs (seedFile rt collection (dict.lookup file.relativePath) file) w r w' ∧
          SeedStep rt w.view collection file (dict.lookup file.relativePath) r events ∧
          w.Concludes w' events r := by
      cases hlookup : dict.lookup file.relativePath with
      | none => exact seedFile_creates hready hkind hcollection hhash
      | some source =>
        obtain ⟨hsource, _, hcid⟩ := hindex file.relativePath List.mem_cons_self source hlookup
        exact seedFile_updates hready hkind hcollection hsource hcid
    obtain ⟨r, w₁, events, hruns, hhead, hconcludes⟩ := hstep
    cases r with
    | error e => exact ⟨.error e, w₁, [], hruns.stop, .stop hhead, hconcludes⟩
    | ok outcome =>
      have hfollows : w.Follows w₁ events := hconcludes
      have hcollection' : w₁.view.kbCollections.get? collection.id = some collection := by
        rw [hfollows.view, hhead.kbCollections_eq]
        exact hcollection
      have hindex' : Indexes dict w₁.view collection.id (files.map SeedFile.relativePath) := by
        intro path hpath source hlookup
        obtain ⟨hsource, hname, hcid⟩ := hindex path (List.mem_cons_of_mem _ hpath) source hlookup
        refine ⟨?_, hname, hcid⟩
        rw [hfollows.view]
        apply hhead.other_mem hfollows.admissible hsource
        intro other hother hid
        obtain ⟨hmem, hname', _⟩ := hindex file.relativePath List.mem_cons_self other hother
        have hsame := Table.eq_of_key_eq hmem hsource hid
        rw [hsame, hname] at hname'
        exact hnew (hname' ▸ hpath)
      obtain ⟨r, w₂, events', hruns', htail, hconcludes'⟩ :=
        ih hpaths hhashes hfollows.ready hcollection' hindex'
      rw [hfollows.view] at htail
      cases r with
      | error e =>
        exact ⟨.error e, w₂, [], hruns.bind hruns'.stop, .later hhead htail,
          hfollows.keeps_trans hconcludes'⟩
      | ok outcomes =>
        exact ⟨.ok (outcome :: outcomes), w₂, events ++ events',
          hruns.bind (hruns'.bind (Runs.pure _)), .cons hhead htail, hfollows.trans hconcludes'⟩

end YCStudio
