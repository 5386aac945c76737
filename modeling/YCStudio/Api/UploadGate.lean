import YCStudio.Api.KbRoutes
import YCStudio.Consistency.Filenames

namespace YCStudio

section Storage

def pathFor (root : Str) (sourceId : Uuid) (filename : Str) : Str :=
  root ++ '/' :: (sourceId.str ++ '/' :: purePathName filename)

theorem Uuid.slash_not_mem_str (id : Uuid) : '/' ∉ id.str := by
  have hdigits (n : Nat) : '/' ∉ (Nat.repr n).toList := by
    intro h
    have hdigit := Nat.isDigit_of_mem_toDigits (by decide) (by decide)
      (by simpa [Nat.repr] using h : '/' ∈ Nat.toDigits 10 n)
    exact absurd hdigit (by decide)
  rw [Uuid.str, List.mem_append, List.mem_cons]
  rintro (h | h | h)
  · exact hdigits _ h
  · exact absurd h (by decide)
  · exact hdigits _ h

theorem Uuid.properName_str (id : Uuid) : ProperName id.str where
  named := by simp [Uuid.str]
  simple := id.slash_not_mem_str
  notHere := by
    intro h
    have hmem : '-' ∈ id.str := by simp [Uuid.str]
    rw [h] at hmem
    exact absurd hmem (by decide)
  notParent := by
    intro h
    have hmem : '-' ∈ id.str := by simp [Uuid.str]
    rw [h] at hmem
    exact absurd hmem (by decide)

theorem purePathParts_append (directory : Str) {name : Str} (h : ProperName name) :
    purePathParts (directory ++ '/' :: name) = purePathParts directory ++ [name] := by
  have hname : purePathParts name = [name] := purePathParts_name h.named h.simple h.notHere
  conv_rhs => rw [← hname]
  rw [purePathParts, purePathParts, purePathParts, Str.split_singleton, Str.split_singleton,
    Str.split_singleton, List.splitOn_append_cons_self, List.filter_append]

theorem purePathParts_pathFor (root : Str) (sourceId : Uuid) {filename : Str}
    (h : ProperName (purePathName filename)) :
    purePathParts (pathFor root sourceId filename) =
      purePathParts root ++ [sourceId.str, purePathName filename] := by
  have hdirectory : pathFor root sourceId filename =
      (root ++ '/' :: sourceId.str) ++ '/' :: purePathName filename := by simp [pathFor]
  rw [hdirectory, purePathParts_append _ h, purePathParts_append _ sourceId.properName_str,
    List.append_assoc]
  rfl

end Storage

section Accepted

variable {libs : ParserLibraries} {limit : Nat}

theorem hasMappedSuffix_of_accepted {file : UploadFile} {filename : Str} {fileBytes : Bytes}
    (h : acceptUpload libs limit file = .ok (filename, fileBytes)) :
    HasMappedSuffix libs filename ∧ fileBytes.length ≤ limit := by
  obtain ⟨⟨⟨path, _, _, rfl⟩, hmapped, _⟩, _, hlength⟩ := acceptUpload_ok_iff.mp h
  rw [HasMappedSuffix, purePathName_name]
  exact ⟨hmapped, hlength⟩

theorem acceptUploads_forall {files : List UploadFile} {dirPaths : List (Option Str)}
    {uploads : List PendingUpload} (h : acceptUploads libs limit files dirPaths = .ok uploads) :
    ∀ upload ∈ uploads, HasMappedSuffix libs upload.filename ∧ upload.fileBytes.length ≤ limit := by
  induction files generalizing dirPaths uploads with
  | nil =>
    cases h
    exact fun _ hmem => absurd hmem List.not_mem_nil
  | cons file files ih =>
    cases dirPaths with
    | nil =>
      cases h
      exact fun _ hmem => absurd hmem List.not_mem_nil
    | cons dirPath dirPaths =>
      obtain ⟨⟨filename, fileBytes⟩, haccepted, h⟩ := Except.bind_eq_ok h
      obtain ⟨rest, hrest, h⟩ := Except.bind_eq_ok h
      cases h
      exact List.forall_mem_cons.mpr ⟨hasMappedSuffix_of_accepted haccepted, ih hrest⟩

theorem acceptBatch_forall {files : List UploadFile} {dirPaths : Option (List Str)}
    {uploads : List PendingUpload} (h : acceptBatch libs limit files dirPaths = .ok uploads) :
    ∀ upload ∈ uploads, HasMappedSuffix libs upload.filename ∧ upload.fileBytes.length ≤ limit := by
  rw [acceptBatch] at h
  split at h
  · cases h
  · split at h
    · cases h
    · exact acceptUploads_forall h

namespace KbEvent

def Seeds (path : Str) : KbEvent → Prop
  | seedPublicLibraries _ tree =>
      ∃ library ∈ publicLibraries, ∃ entries ∈ tree library.directory, ∃ entry ∈ entries,
        entry.relativePath = path
  | _ => False

variable {event : KbEvent} {request : Request}

theorem lower_hands (h : event.lower libs limit = some request) :
    request.Hands (HasMappedSuffix libs) fun content => content.length ≤ limit := by
  cases event with
  | uploadFile rt user form file =>
    rw [lower] at h
    split at h
    · next haccepted =>
      cases h
      exact hasMappedSuffix_of_accepted haccepted
    · cases h
  | uploadBatch rt queued user form files dirPaths =>
    rw [lower] at h
    split at h
    · next haccepted =>
      cases h
      exact acceptBatch_forall haccepted
    · cases h
  | _ =>
    cases h
    exact trivial

theorem lower_names {seeded : Str → Prop} (hseeds : ∀ path, event.Seeds path → seeded path)
    (h : event.lower libs limit = some request) :
    request.Names fun name => seeded name ∨ HasMappedSuffix libs name := by
  have hhands := lower_hands h
  cases event with
  | uploadFile rt user form file =>
    rw [lower] at h
    split at h
    · cases h
      exact Or.inr hhands.1
    · cases h
  | uploadBatch rt queued user form files dirPaths =>
    rw [lower] at h
    split at h
    · cases h
      exact fun upload hupload => Or.inr (hhands upload hupload).1
    · cases h
  | seedPublicLibraries rt tree =>
    cases h
    exact fun library hlibrary entries hentries entry hentry =>
      Or.inl (hseeds _ ⟨library, hlibrary, entries, hentries, entry, hentry, rfl⟩)
  | _ =>
    cases h
    exact trivial

end KbEvent

end Accepted

section Downloads

variable {libs : ParserLibraries} {db : Database} {files : Files} {user sourceId : Uuid}
  {download : Bool} {response : FileResponse}

theorem resolveSourceFile_ok {source : Source} {storedFile : StoredFile}
    (h : resolveSourceFile db files user sourceId = .ok (source, storedFile)) :
    storedFile.path = (source.id, purePathName source.filename) ∧
      ∃ content, files.lookup storedFile.path = some content := by
  obtain ⟨found, _, h⟩ := Except.bind_eq_ok h
  cases hstored : findStored files found.id found.filename with
  | none =>
    rw [hstored] at h
    cases h
  | some stored =>
    rw [hstored] at h
    cases h
    obtain ⟨content, hlookup, rfl⟩ := Option.map_eq_some_iff.mp hstored
    exact ⟨rfl, content, hlookup⟩

structure FileResponse.Safe (libs : ParserLibraries) (limit : Nat) (download : Bool)
    (response : FileResponse) : Prop where
  name : response.path.2 = response.filename
  length : response.content.length ≤ limit
  served : ∃ previewMode,
    servedFileBySuffix.lookup (uploadSuffix libs response.filename) =
        some (response.mediaType, previewMode) ∧
      (response.disposition = .inline ↔ download = false ∧ previewMode ≠ .download)
  inline : response.disposition = .inline → uploadSuffix libs response.filename ∈
    [".md".toList, ".markdown".toList, ".txt".toList, ".pdf".toList]
  markup : uploadSuffix libs response.filename ∈ [".htm".toList, ".html".toList] →
    response.mediaType = textMediaType ∧ response.disposition = .attachment
  nosniff : ("X-Content-Type-Options".toList, "nosniff".toList) ∈ response.headers

theorem servedFileFor_supported {suffix : Str} (h : suffix ∈ supportedSuffixes) :
    servedFileBySuffix.lookup suffix = some (servedFileFor suffix) ∧
      ((servedFileFor suffix).2 ≠ .download →
        suffix ∈ [".md".toList, ".markdown".toList, ".txt".toList, ".pdf".toList]) ∧
      (suffix ∈ [".htm".toList, ".html".toList] →
        servedFileFor suffix = (textMediaType, .download)) := by
  have hall : ∀ suffix ∈ supportedSuffixes,
      servedFileBySuffix.lookup suffix = some (servedFileFor suffix) ∧
        ((servedFileFor suffix).2 ≠ .download →
          suffix ∈ [".md".toList, ".markdown".toList, ".txt".toList, ".pdf".toList]) ∧
        (suffix ∈ [".htm".toList, ".html".toList] →
          servedFileFor suffix = (textMediaType, .download)) := by decide
  exact hall suffix h

theorem answered_ok {α β : Type} {clauses : ExceptClauses} {reply : α → β} {result : Except Exn α}
    {answer : β} (h : (result.mapError clauses.answer).map reply = .ok answer) :
    ∃ a, result = .ok a ∧ reply a = answer := by
  cases result with
  | error e => cases h
  | ok a => exact ⟨a, rfl, Except.ok.inj h⟩

theorem downloadKbSourceFile_safe {limit : Nat}
    (hfiles : FitAll (HasMappedSuffix libs) (fun content => content.length ≤ limit) files)
    (h : downloadKbSourceFile libs db files user sourceId download = .ok response) :
    response.Safe libs limit download := by
  obtain ⟨⟨source, storedFile⟩, hresolved, rfl⟩ := answered_ok h
  obtain ⟨hpath, content, hlookup⟩ := resolveSourceFile_ok hresolved
  obtain ⟨⟨filename, hmapped, hname⟩, hlength⟩ := hfiles _ (mem_of_lookup hlookup)
  rw [hpath] at hname
  have hsupported : uploadSuffix libs (purePathName source.filename) ∈ supportedSuffixes := by
    rw [HasMappedSuffix, ← hname] at hmapped
    exact hmapped
  obtain ⟨hserved, hinline, hmarkup⟩ := servedFileFor_supported hsupported
  have hresponse : fileResponse libs files download source storedFile = {
      path := storedFile.path
      content := content
      mediaType := (servedFileFor (uploadSuffix libs (purePathName source.filename))).1
      filename := purePathName source.filename
      disposition := if download ∨ (servedFileFor (uploadSuffix libs
        (purePathName source.filename))).2 = .download then .attachment else .inline
      headers := [("X-Content-Type-Options".toList, "nosniff".toList),
        ("Cache-Control".toList, "private, max-age=0".toList)] } := by
    simp only [fileResponse, purePathName_name, hlookup, Option.getD_some]
  rw [hresponse]
  refine ⟨congrArg Prod.snd hpath, hlength, ⟨(servedFileFor (uploadSuffix libs
    (purePathName source.filename))).2, hserved, ?_⟩, ?_, ?_, List.mem_cons_self⟩
  · cases download <;> simp
  · intro hdisposition
    refine hinline fun hmode => ?_
    simp [hmode] at hdisposition
  · intro hsuffix
    simp [hmarkup hsuffix]

end Downloads

structure Server.Gated (libs : ParserLibraries) (limit : Nat) (seeded : Str → Prop)
    (server : Server) : Prop where
  sources : ∀ source ∈ server.database.sources,
    seeded source.filename ∨ HasMappedSuffix libs source.filename
  names : ∀ stored ∈ server.files, ∀ root, ProperName stored.1.2 ∧
    purePathParts (pathFor root stored.1.1 stored.1.2) =
      purePathParts root ++ [stored.1.1.str, stored.1.2]
  parsers : ∀ stored ∈ server.files, ∀ directory content,
    ∃ parserClass, getParser libs { directory, name := stored.1.2, content } = .ok parserClass
  lengths : ∀ stored ∈ server.files, stored.2.length ≤ limit
  downloads : ∀ user sourceId download response,
    downloadKbSourceFile libs server.database server.files user sourceId download = .ok response →
      response.Safe libs limit download

namespace KbEvent

variable {libs : ParserLibraries} {limit : Nat}

theorem performAll_fits (libs : ParserLibraries) (limit : Nat) (users : List Uuid) (events : List KbEvent) :
    FitAll (HasMappedSuffix libs) (fun content => content.length ≤ limit)
      (performAll libs limit events (.empty users)).files := by
  rw [performAll_eq]
  have hprefixes : KeptByPrefixes fun content : Bytes => content.length ≤ limit :=
    fun content count h => (List.length_take_le' count content).trans h
  refine Request.performAll_fits hprefixes users fun request hrequest => ?_
  obtain ⟨event, _, hlower⟩ := List.mem_filterMap.mp hrequest
  exact lower_hands hlower

theorem performAll_named (users : List Uuid) (events : List KbEvent) :
    ∀ source ∈ (performAll libs limit events (.empty users)).database.sources,
      (∃ event ∈ events, event.Seeds source.filename) ∨ HasMappedSuffix libs source.filename := by
  rw [performAll_eq]
  let named : Str → Prop := fun name =>
    (∃ event ∈ events, event.Seeds name) ∨ HasMappedSuffix libs name
  refine Request.performAll_named (P := named) users fun request hrequest => ?_
  obtain ⟨event, hevent, hlower⟩ := List.mem_filterMap.mp hrequest
  exact lower_names (fun path hseeds => ⟨event, hevent, hseeds⟩) hlower

theorem performAll_gated (hfolds : libs.FoldsSuffixes) (users : List Uuid)
    (events : List KbEvent) :
    (performAll libs limit events (.empty users)).Gated libs limit fun path =>
      ∃ event ∈ events, event.Seeds path := by
  have hfiles := performAll_fits libs limit users events
  refine ⟨performAll_named users events, fun stored hstored root => ?_,
    fun stored hstored directory content => ?_, fun stored hstored => (hfiles stored hstored).2,
    fun user sourceId download response h => downloadKbSourceFile_safe hfiles h⟩
  · obtain ⟨⟨filename, hmapped, hname⟩, _⟩ := hfiles stored hstored
    have hproper := ProperName.of_mapped hfolds hmapped
    have hplain : purePathName stored.1.2 = stored.1.2 := by rw [hname, purePathName_name]
    have hstoredProper : ProperName (purePathName stored.1.2) := by rwa [hname, purePathName_name]
    have hparts := purePathParts_pathFor root stored.1.1 hstoredProper
    rw [hplain] at hstoredProper hparts
    exact ⟨hstoredProper, hparts⟩
  · obtain ⟨⟨filename, hmapped, hname⟩, _⟩ := hfiles stored hstored
    rw [hname]
    exact getParser_of_mapped hfolds hmapped directory content

theorem asciiLibraries_foldsSuffixes : asciiLibraries.FoldsSuffixes where
  nil := rfl
  supported := by decide

theorem performAll_gated_events :
    (performAll asciiLibraries 10485760 briefEvents (.empty [sampleUser])).Gated asciiLibraries
      10485760 fun path => ∃ event ∈ briefEvents, event.Seeds path :=
  performAll_gated asciiLibraries_foldsSuffixes _ _

end KbEvent

end YCStudio
