import BeamSearch.Search.Replayable
import BeamSearch.Search.Session

/-
  What a later outcome keeps of the first log.

  The metadata a session stores has the first log's fields in
  it. A later log lays its own fields over them, so a field it
  does not have shows through: a collection, or a list of
  several batch sizes.

  Main declarations:
    * `terminalKeys`, `Covers`, `LeaksNothing`
    * `RunsTo`
    * `serve_fields`
    * `leaksNothing_iff`
-/

namespace BeamSearch

open Hoare Text

namespace Search

open TerminalParser

variable {parser : TerminalParser} {session last : SearchSession} {request : Request}
    {reused : Bool} {outcome : Outcome} {terminal : TerminalResult}
    {identity : SessionIdentity} {requests : List Request} {outcomes : List Outcome}

----------------
-- Fields Of A Result
----------------

/- The keys a log may fill. -/
def terminalKeys : List String :=
  ["native_seconds", "terminal_records", "collected_solutions",
    "collection_status"] ++
    BatchKey.all.map BatchKey.name ++
    BatchKey.all.map byRankKey

/- Two sizes are reported under one key. -/
def Several (lines : List Text) (key : BatchKey) : Prop :=
  ∃ a b, Sized lines key a ∧ Sized lines key b ∧ a ≠ b

/- What the one log may say, the other one says too. -/
structure Covers (earlier later : List Text) : Prop where
  collection : Collects earlier → Collects later
  batches : ∀ key, Several earlier key → Several later key

/- The log fills this key. -/
def Fills (lines : List Text) (key : String) : Prop :=
  (key = "collected_solutions" ∨ key = "collection_status" →
      Collects lines) ∧
    ∀ batch : BatchKey,
      key = byRankKey batch → Several lines batch

theorem batch_names_ne
    {key other : BatchKey}
    (hNe : key ≠ other) :
    (key.name ≠ other.name ∧ key.name ≠ byRankKey other) ∧
      byRankKey key ≠ other.name ∧
      byRankKey key ≠ byRankKey other := by
  cases key <;> cases other <;>
    first
      | exact absurd rfl hNe
      | decide

theorem fills_iff_covers
    {earlier later : List Text} :
    (∀ key ∈ terminalKeys,
        Fills earlier key → Fills later key) ↔
      Covers earlier later := by
  constructor
  · intro hFills
    constructor
    · intro hCollects
      refine
        (hFills "collected_solutions" (by decide)
          ⟨fun _ => hCollects, fun batch hKey => ?_⟩).1
          (Or.inl rfl)
      cases batch <;> exact absurd hKey (by decide)
    · intro batch hSeveral
      refine
        (hFills (byRankKey batch) (by cases batch <;> decide)
          ⟨fun hKey => ?_, fun other hKey => ?_⟩).2 batch rfl
      · cases batch <;> exact absurd hKey (by decide)
      · have hSame : batch = other := by
          by_contra hNe
          exact (batch_names_ne hNe).2.2 hKey
        exact hSame ▸ hSeveral
  · intro hCovers key _ hFills
    exact
      ⟨fun hKey => hCovers.collection (hFills.1 hKey),
        fun batch hKey =>
          hCovers.batches batch (hFills.2 batch hKey)⟩

theorem several_iff
    {lines : List Text}
    {key : BatchKey}
    {sizes : List Nat}
    (hSizes : ∀ size, size ∈ sizes ↔ Sized lines key size)
    (hOrdered : sizes.Pairwise (· < ·)) :
    sizes.length > 1 ↔ Several lines key := by
  constructor
  · intro hLength
    refine
      ⟨sizes[0], sizes[1], (hSizes _).mp (List.getElem_mem _),
        (hSizes _).mp (List.getElem_mem _), ?_⟩
    exact
      Nat.ne_of_lt
        (List.pairwise_iff_getElem.mp hOrdered 0 1 (by omega)
          hLength Nat.zero_lt_one)
  · rintro ⟨a, b, hA, hB, hNe⟩
    by_contra hNot
    rcases List.getElem_of_mem ((hSizes a).mpr hA) with
      ⟨i, hi, rfl⟩
    rcases List.getElem_of_mem ((hSizes b).mpr hB) with
      ⟨j, hj, rfl⟩
    have hSame : i = j := by omega
    subst hSame
    exact hNe rfl

theorem lookup_batchFields_name
    (parser : TerminalParser)
    (metadata : Json.Fields)
    (key : BatchKey) :
    (parser.batchFields metadata key).lookup key.name ≠
      none := by
  rw [batchFields]
  split_ifs
  · rw [Json.lookup_insert_of_ne (by cases key <;> decide),
      Json.lookup_insert_self]
    exact Option.some_ne_none _
  · rw [Json.lookup_insert_self]
    exact Option.some_ne_none _

theorem lookup_batchFields_byRank
    (parser : TerminalParser)
    {metadata : Json.Fields}
    {key : BatchKey}
    (hNone : metadata.lookup (byRankKey key) = none) :
    (parser.batchFields metadata key).lookup (byRankKey key) ≠
        none ↔
      (parser.batches key).length > 1 := by
  rw [batchFields]
  split_ifs with hSeveral
  · rw [Json.lookup_insert_self]
    exact iff_of_true (Option.some_ne_none _) hSeveral
  · rw [Json.lookup_insert_of_ne (by cases key <;> decide),
      hNone]
    exact iff_of_false (fun hNot => hNot rfl) hSeveral

/- Only its own step of the loop writes the keys of a batch. -/
theorem lookup_all_batches
    (parser : TerminalParser)
    (metadata : Json.Fields)
    (key : BatchKey)
    {other : String}
    (hOther : other = key.name ∨ other = byRankKey key)
    (hNone : metadata.lookup other = none) :
    ∃ before : Json.Fields,
      before.lookup other = none ∧
      (BatchKey.all.foldl parser.batchFields metadata).lookup
          other =
        (parser.batchFields before key).lookup other := by
  have hSkip :
      ∀ (fields : Json.Fields) (next : BatchKey),
        key ≠ next →
        (parser.batchFields fields next).lookup other =
          fields.lookup other := by
    intro fields next hNe
    rcases batch_names_ne hNe with ⟨hName, hByRank⟩
    rcases hOther with rfl | rfl
    · exact lookup_batchFields parser fields hName.1 hName.2
    · exact lookup_batchFields parser fields hByRank.1 hByRank.2
  rw [BatchKey.all, List.foldl_cons, List.foldl_cons,
    List.foldl_cons, List.foldl_nil]
  cases key with
  | bMicro =>
      refine ⟨metadata, hNone, ?_⟩
      rw [hSkip _ _ (by decide), hSkip _ _ (by decide)]
  | stream1RowsPerJob =>
      refine
        ⟨parser.batchFields metadata .bMicro, ?_, ?_⟩
      · rw [hSkip _ _ (by decide), hNone]
      · rw [hSkip _ _ (by decide)]
  | stream3BatchCandidates =>
      refine ⟨_, ?_, rfl⟩
      rw [hSkip _ _ (by decide), hSkip _ _ (by decide), hNone]

theorem lookup_collection
    {lines : List Text}
    {graph : PermutationGraph}
    {start : List UInt8}
    {maxSteps : Option Nat}
    {path : Option (List Nat)}
    {fields : Json.Fields}
    (hRead : ReadFrom graph start maxSteps lines parser)
    (hFields :
      parser.collectionFields path
          [("native_seconds", .double parser.seconds),
            ("terminal_records", .integer parser.records)] =
        .ok fields) :
    (∀ key,
        key = "collected_solutions" ∨
          key = "collection_status" →
        (fields.lookup key ≠ none ↔ Collects lines)) ∧
      (∀ key,
        key = "native_seconds" ∨ key = "terminal_records" →
        fields.lookup key ≠ none) ∧
      ∀ batch : BatchKey,
        fields.lookup batch.name = none ∧
          fields.lookup (byRankKey batch) = none := by
  rcases collectionFields_eq_ok hFields with
    ⟨hCounts, hNone, rfl⟩ | ⟨hAgreed, status, rfl⟩
  · refine ⟨?_, ?_, ?_⟩
    · rintro key (rfl | rfl)
      · exact
          iff_of_false (fun hNot => hNot rfl)
            (hRead.not_collects hCounts hNone)
      · exact
          iff_of_false (fun hNot => hNot rfl)
            (hRead.not_collects hCounts hNone)
    · rintro key (rfl | rfl)
      · exact Option.some_ne_none _
      · exact Option.some_ne_none _
    · intro batch
      cases batch <;> exact ⟨rfl, rfl⟩
  · have hCollects : Collects lines := by
      have hSummaries := hRead.counts
      rw [hAgreed.counts] at hSummaries
      rcases List.forall₂_cons_right_iff.mp hSummaries with
        ⟨line, rest, -, -, hLines⟩
      have hMem : line ∈ lines.filter isSummary := by
        rw [hLines]
        exact List.mem_cons_self
      rcases List.mem_filter.mp hMem with ⟨hIn, hSummary⟩
      exact
        ⟨line, hIn, by rw [isCollecting, hSummary, Bool.or_true]⟩
    refine ⟨?_, ?_, ?_⟩
    · rintro key (rfl | rfl)
      · rw [Json.lookup_insert_of_ne (by decide),
          Json.lookup_insert_self]
        exact iff_of_true (Option.some_ne_none _) hCollects
      · rw [Json.lookup_insert_self]
        exact iff_of_true (Option.some_ne_none _) hCollects
    · rintro key (rfl | rfl)
      · rw [Json.lookup_insert_of_ne (by decide),
          Json.lookup_insert_of_ne (by decide)]
        exact Option.some_ne_none _
      · rw [Json.lookup_insert_of_ne (by decide),
          Json.lookup_insert_of_ne (by decide)]
        exact Option.some_ne_none _
    · intro batch
      constructor
      · rw [Json.lookup_insert_of_ne (by cases batch <;> decide),
          Json.lookup_insert_of_ne (by cases batch <;> decide)]
        cases batch <;> rfl
      · rw [Json.lookup_insert_of_ne (by cases batch <;> decide),
          Json.lookup_insert_of_ne (by cases batch <;> decide)]
        cases batch <;> rfl

theorem mem_terminalKeys
    {key : String}
    (hKey : key ∈ terminalKeys) :
    (key = "native_seconds" ∨ key = "terminal_records") ∨
      (key = "collected_solutions" ∨
        key = "collection_status") ∨
      (∃ batch : BatchKey, key = batch.name) ∨
      ∃ batch : BatchKey, key = byRankKey batch := by
  rw [terminalKeys, List.mem_append, List.mem_append] at hKey
  rcases hKey with (hKey | hKey) | hKey
  · simp only [List.mem_cons, List.not_mem_nil, or_false]
      at hKey
    tauto
  · rcases List.mem_map.mp hKey with ⟨batch, -, rfl⟩
    exact Or.inr (Or.inr (Or.inl ⟨batch, rfl⟩))
  · rcases List.mem_map.mp hKey with ⟨batch, -, rfl⟩
    exact Or.inr (Or.inr (Or.inr ⟨batch, rfl⟩))

/- A key that every result has is filled by any log. -/
theorem fills_of_always
    {key : String}
    (lines : List Text)
    (hKey :
      key = "native_seconds" ∨ key = "terminal_records" ∨
        ∃ batch : BatchKey, key = batch.name) :
    Fills lines key := by
  rcases hKey with rfl | rfl | ⟨batch, rfl⟩
  · refine ⟨fun hSame => absurd hSame (by decide), ?_⟩
    intro other hSame
    cases other <;> exact absurd hSame (by decide)
  · refine ⟨fun hSame => absurd hSame (by decide), ?_⟩
    intro other hSame
    cases other <;> exact absurd hSame (by decide)
  · refine ⟨fun hSame => ?_, ?_⟩
    · cases batch <;> exact absurd hSame (by decide)
    · intro other hSame
      cases batch <;> cases other <;>
        exact absurd hSame (by decide)

/- A key is there exactly when the log fills it. -/
theorem ReadFrom.lookup_ne_none
    {graph : PermutationGraph}
    {start : List UInt8}
    {maxSteps : Option Nat}
    {lines : List Text}
    {result : TerminalResult}
    (hRead : ReadFrom graph start maxSteps lines parser)
    (hFinish : parser.finish = .ok result) :
    ∀ key ∈ terminalKeys,
      (result.metadata.lookup key ≠ none ↔ Fills lines key) := by
  intro key hKey
  rcases finish_eq_ok hFinish with
    ⟨-, -, -, fields, hFields, hMetadata⟩
  rcases lookup_collection hRead hFields with
    ⟨hCollection, hAlways, hBatches⟩
  rw [hMetadata]
  rcases mem_terminalKeys hKey with
    hPlain | hCollect | ⟨batch, rfl⟩ | ⟨batch, rfl⟩
  · rw [lookup_batches parser fields fun batch => by
      rcases hPlain with rfl | rfl <;>
        cases batch <;> decide]
    refine iff_of_true (hAlways key hPlain)
      (fills_of_always lines ?_)
    tauto
  · rw [lookup_batches parser fields fun batch => by
      rcases hCollect with rfl | rfl <;>
        cases batch <;> decide, hCollection key hCollect]
    constructor
    · intro hCollects
      refine ⟨fun _ => hCollects, fun batch hSame => ?_⟩
      rcases hCollect with rfl | rfl <;>
        cases batch <;> exact absurd hSame (by decide)
    · exact fun hFills => hFills.1 hCollect
  · rcases lookup_all_batches parser fields batch (Or.inl rfl)
        (hBatches batch).1 with
      ⟨before, -, hLookup⟩
    rw [hLookup]
    exact
      iff_of_true (lookup_batchFields_name parser before batch)
        (fills_of_always lines (Or.inr (Or.inr ⟨batch, rfl⟩)))
  · rcases lookup_all_batches parser fields batch (Or.inr rfl)
        (hBatches batch).2 with
      ⟨before, hNone, hLookup⟩
    rw [hLookup, lookup_batchFields_byRank parser hNone,
      several_iff (hRead.sizes batch) (hRead.ordered batch)]
    constructor
    · intro hSeveral
      refine ⟨fun hSame => ?_, fun other hSame => ?_⟩
      · cases batch <;> exact absurd hSame (by decide)
      · have hEq : batch = other := by
          by_contra hNe
          exact (batch_names_ne hNe).2.2 hSame
        exact hEq ▸ hSeveral
    · exact fun hFills => hFills.2 batch rfl

theorem nodup_batchFields
    (parser : TerminalParser)
    {metadata : Json.Fields}
    (hNodup : (metadata.map Prod.fst).Nodup)
    (key : BatchKey) :
    ((parser.batchFields metadata key).map Prod.fst).Nodup := by
  rw [batchFields]
  split_ifs
  · exact Json.nodup_insert _ _ (Json.nodup_insert _ _ hNodup)
  · exact Json.nodup_insert _ _ hNodup

theorem nodup_metadata
    {result : TerminalResult}
    (hFinish : parser.finish = .ok result) :
    (result.metadata.map Prod.fst).Nodup := by
  rcases finish_eq_ok hFinish with
    ⟨-, -, -, fields, hFields, hMetadata⟩
  have hBase :
      (["native_seconds", "terminal_records"] :
          List String).Nodup := by
    decide
  have hStart : (fields.map Prod.fst).Nodup := by
    rcases collectionFields_eq_ok hFields with
      ⟨-, -, rfl⟩ | ⟨-, status, rfl⟩
    · exact hBase
    · exact Json.nodup_insert _ _ (Json.nodup_insert _ _ hBase)
  rw [hMetadata, BatchKey.all, List.foldl_cons, List.foldl_cons,
    List.foldl_cons, List.foldl_nil]
  exact
    nodup_batchFields parser
      (nodup_batchFields parser
        (nodup_batchFields parser hStart _) _) _

----------------
-- A Successful Call
----------------

/- The log of a request, parsed for its own graph and start. -/
def parseRequest (request : Request) :
    Except Error TerminalResult :=
  parseTerminal request.attempt.log request.identity.graph
    request.start (some request.identity.maxSteps)

/- The outcome of a parsed log. -/
def outcomeOf
    (request : Request)
    (terminal : TerminalResult)
    (output : Json.Fields) : Outcome where
  path := terminal.path
  elapsedSeconds := request.attempt.elapsed
  effectiveBeamWidth := terminal.effectiveBeamWidth
  metadata := .object output

/- What a call does from a session with its identity or none. -/
inductive RunsTo
    (request : Request)
    (session : SearchSession) :
    Outcome → SearchSession → Prop where
  | immediate
      (hImmediate : immediate request = true) :
      RunsTo request session (immediateOutcome request) session
  | launched
      (workers : ResidentWorkers)
      (terminal : TerminalResult)
      (output : Json.Fields)
      (hImmediate : Search.immediate request = false)
      (hWorkers : session.workers = none)
      (hParse : parseRequest request = .ok terminal)
      (hOutput :
        composeMetadata request request.metadata terminal
            workers false =
          .ok output) :
      RunsTo request session
        (outcomeOf request terminal output)
        { session with
          workers := some workers
          identity := some request.identity
          metadata := some (.object output) }
  | reused
      (workers : ResidentWorkers)
      (terminal : TerminalResult)
      (base : Json)
      (output : Json.Fields)
      (hImmediate : Search.immediate request = false)
      (hWorkers : session.workers ≠ none)
      (hBase : session.metadata = some base)
      (hParse : parseRequest request = .ok terminal)
      (hOutput :
        composeMetadata request base terminal workers true =
          .ok output) :
      RunsTo request session
        (outcomeOf request terminal output)
        { session with workers := some workers }

/- A step that may fail, run to its end. -/
theorem orThrow_bind_eq_ok
    {α β : Type}
    {result : Except Error α}
    {next : α → SessionM β}
    {b : β}
    (hRun :
      (orThrow result >>= next) session = .ok b last) :
    ∃ a, result = .ok a ∧ next a session = .ok b last := by
  cases result with
  | error error => cases hRun
  | ok a => exact ⟨a, rfl, hRun⟩

theorem orThrow_eq_ok
    {α : Type}
    {result : Except Error α}
    {a : α}
    (hRun : orThrow result session = .ok a last) :
    result = .ok a ∧ last = session := by
  cases result with
  | error error => cases hRun
  | ok b =>
      cases hRun
      exact ⟨rfl, rfl⟩

/- The workers are at hand or have just been started. -/
theorem ensureWorkers_eq_ok
    (hRun : ensureWorkers request session = .ok reused last) :
    (reused = true ∧ session.workers ≠ none ∧ last = session) ∨
      (reused = false ∧ session.workers = none ∧
        ∃ workers,
          last =
            { session with
              workers := some workers
              identity := some request.identity }) := by
  change
    (if session.workers.isSome then pure true
      else do
        let workers ← orThrow (launchWorkers request)
        set
          { session with
            workers := some workers
            identity := some request.identity }
        pure false : SessionM Bool) session =
      .ok reused last at hRun
  by_cases hSome : session.workers.isSome = true
  · rw [if_pos hSome] at hRun
    cases hRun
    exact
      Or.inl ⟨rfl, Option.isSome_iff_ne_none.mp hSome, rfl⟩
  · rw [if_neg hSome] at hRun
    rcases orThrow_bind_eq_ok hRun with ⟨workers, -, hSet⟩
    cases hSet
    exact
      Or.inr
        ⟨rfl, Option.not_isSome_iff_eq_none.mp hSome, workers,
          rfl⟩

/- A request changes the workers alone. -/
theorem submit_eq_ok
    {workers : ResidentWorkers}
    (hRun : submit request session = .ok workers last) :
    last = { session with workers := some workers } := by
  rcases bind_eq_ok hRun with ⟨s, t, hGet, hMatch⟩
  cases hGet
  cases hWorkers : session.workers with
  | none =>
      rw [hWorkers] at hMatch
      cases hMatch
  | some old =>
      rw [hWorkers] at hMatch
      rcases orThrow_bind_eq_ok hMatch with ⟨_, -, hSubmit⟩
      rcases orThrow_bind_eq_ok hSubmit with ⟨_, -, hSet⟩
      cases hSet
      rfl

/- The base is the metadata kept, or the request's own. -/
theorem resultBase_eq_ok
    {base : Json}
    (hRun : resultBase request reused session = .ok base last) :
    last = session ∧
      if reused then session.metadata = some base
      else base = request.metadata := by
  rcases bind_eq_ok hRun with ⟨s, t, hGet, hMatch⟩
  cases hGet
  cases reused with
  | false =>
      cases hMatch
      exact ⟨rfl, rfl⟩
  | true =>
      cases hMetadata : session.metadata with
      | none =>
          rw [hMetadata] at hMatch
          cases hMatch
      | some metadata =>
          rw [hMetadata] at hMatch
          cases hMatch
          exact ⟨rfl, rfl⟩

/- The first metadata is kept, later ones are not. -/
theorem keepMetadata_eq_ok
    {output : Json.Fields}
    (hRun : keepMetadata reused output session = .ok ⟨⟩ last) :
    last =
      if reused then session
      else { session with metadata := some (.object output) } := by
  rcases bind_eq_ok hRun with ⟨s, t, hGet, hSet⟩
  cases hGet
  cases reused with
  | false =>
      cases hSet
      rfl
  | true =>
      cases hSet
      rfl

/- A served request runs to its outcome. -/
theorem serveRequest_eq_ok
    (hImmediate : immediate request = false)
    (hRun : serveRequest request session = .ok outcome last) :
    RunsTo request session outcome last := by
  rcases bind_eq_ok hRun with ⟨reused, s₁, hEnsure, hRun₁⟩
  rcases bind_eq_ok hRun₁ with ⟨workers, s₂, hSubmit, hRun₂⟩
  rcases orThrow_bind_eq_ok hRun₂ with ⟨terminal, hParse, hRun₃⟩
  rcases orThrow_bind_eq_ok hRun₃ with ⟨_, -, hRun₄⟩
  rcases bind_eq_ok hRun₄ with ⟨base, s₅, hBase, hRun₅⟩
  rcases orThrow_bind_eq_ok hRun₅ with ⟨output, hOutput, hRun₆⟩
  rcases bind_eq_ok hRun₆ with ⟨_, s₇, hKeep, hRun₇⟩
  rcases orThrow_bind_eq_ok hRun₇ with ⟨_, -, hRun₈⟩
  rcases orThrow_bind_eq_ok hRun₈ with ⟨_, -, hRun₉⟩
  have hSubmitted := submit_eq_ok hSubmit
  rcases resultBase_eq_ok hBase with ⟨hSame, hFrom⟩
  have hKept := keepMetadata_eq_ok hKeep
  cases hRun₉
  rcases ensureWorkers_eq_ok hEnsure with
    ⟨rfl, hWorkers, rfl⟩ | ⟨rfl, hWorkers, fresh, rfl⟩
  · rw [if_pos rfl] at hFrom hKept
    rw [hKept, hSame, hSubmitted]
    rw [hSubmitted] at hFrom
    exact
      RunsTo.reused workers terminal base output hImmediate
        hWorkers hFrom hParse hOutput
  · rw [if_neg (by decide)] at hFrom hKept
    rw [hKept, hSame, hSubmitted]
    rw [hFrom] at hOutput
    exact
      RunsTo.launched workers terminal output hImmediate hWorkers
        hParse hOutput

/- What another identity left is released first. -/
def matched
    (request : Request)
    (session : SearchSession) : SearchSession :=
  if session.identity = some request.identity then session
  else released session

theorem release_eq_ok
    {oldClosed : Except Error Unit}
    (hRun : release oldClosed session = .ok ⟨⟩ last) :
    last = released session := by
  change
    (if session.workers.isSome then orThrow oldClosed
      else pure ⟨⟩ : SessionM PUnit) (released session) =
      .ok ⟨⟩ last at hRun
  by_cases hSome : session.workers.isSome = true
  · rw [if_pos hSome] at hRun
    exact (orThrow_eq_ok hRun).2
  · rw [if_neg hSome] at hRun
    cases hRun
    rfl

/- Matching may release the workers. -/
theorem matchIdentity_eq_ok
    (hRun : matchIdentity request session = .ok ⟨⟩ last) :
    last = matched request session := by
  change
    (if session.identity = some request.identity then pure ⟨⟩
      else release request.attempt.oldClosed : SessionM PUnit)
        session =
      .ok ⟨⟩ last at hRun
  rw [matched]
  by_cases hSame : session.identity = some request.identity
  · rw [if_pos hSame] at hRun ⊢
    cases hRun
    rfl
  · rw [if_neg hSame] at hRun ⊢
    exact release_eq_ok hRun

/- A request runs in the session that matching leaves. -/
theorem runInner_eq_ok
    (hRun : runInner request session = .ok outcome last) :
    RunsTo request (matched request session) outcome last := by
  rcases orThrow_bind_eq_ok hRun with ⟨_, -, hRun₁⟩
  rcases bind_eq_ok hRun₁ with ⟨_, t, hMatch, hRun₂⟩
  have hMatched := matchIdentity_eq_ok hMatch
  subst hMatched
  rw [answerRequest] at hRun₂
  by_cases hImmediate : immediate request = true
  · rw [if_pos hImmediate] at hRun₂
    cases hRun₂
    exact RunsTo.immediate hImmediate
  · rw [if_neg hImmediate] at hRun₂
    by_cases hExists : request.attempt.outcomeExists = true
    · rw [if_pos hExists] at hRun₂
      cases hRun₂
    · rw [if_neg hExists] at hRun₂
      exact
        serveRequest_eq_ok (Bool.eq_false_iff.mpr hImmediate)
          hRun₂

theorem releasing_eq_ok
    {α : Type}
    {call : SessionM α}
    {a : α}
    (hRun : releasing call session = .ok a last) :
    call session = .ok a last := by
  rw [releasing] at hRun
  cases hCall : call session with
  | error error state =>
      rw [hCall] at hRun
      cases hRun
  | ok value state =>
      rw [hCall] at hRun
      exact hRun

/- A run matches the identity, then serves the request. -/
theorem run_eq_ok
    (hRun : run request session = .ok outcome last) :
    ∃ cancelled,
      RunsTo request
        (matched request
          { session with cancelled := cancelled })
        outcome last := by
  rcases bind_eq_ok hRun with ⟨s, t, hGet, hRun₁⟩
  cases hGet
  by_cases hOwner : session.owner ≠ request.attempt.process
  · rw [if_pos hOwner] at hRun₁
    cases hRun₁
  · rw [if_neg hOwner] at hRun₁
    rcases bind_eq_ok hRun₁ with ⟨_, t, hSet, hRun₂⟩
    cases hSet
    split_ifs at hRun₂ with hClosed
    · cases hRun₂
    · exact ⟨_, runInner_eq_ok (releasing_eq_ok hRun₂)⟩

----------------
-- Fields Of An Outcome
----------------

/- A field of an outcome. -/
def fieldOf (outcome : Outcome) (key : String) : Option Json :=
  outcome.metadata.asFields.bind fun fields => fields.lookup key

/- The lines of a request's log. -/
def logTexts (request : Request) : List Text :=
  match request.attempt.log with
  | .error _ => []
  | .ok lines => lines.map LogLine.text

/- A log that was read is a run of the parser. -/
theorem lines_of_readLine
    {lines : List LogLine}
    {final : TerminalParser}
    (hRead : lines.foldlM readLine parser = .ok final) :
    parser.lines (lines.map LogLine.text) = .ok final := by
  induction lines generalizing parser with
  | nil =>
      cases hRead
      rfl
  | cons first lines ih =>
      rw [List.foldlM_cons] at hRead
      rcases except_bind_eq_ok hRead with ⟨next, hFirst, hRest⟩
      rw [readLine] at hFirst
      split_ifs at hFirst
      cases hLine : parser.line first.text with
      | error error =>
          rw [hLine] at hFirst
          cases hFirst
      | ok value =>
          rw [hLine] at hFirst
          cases hFirst
          rw [List.map_cons, TerminalParser.lines,
            List.foldlM_cons, hLine]
          exact ih hRest

/- A parsed log is read line by line and fills its keys. -/
theorem parseRequest_eq_ok
    (hParse : parseRequest request = .ok terminal) :
    (terminal.metadata.map Prod.fst).Nodup ∧
      ∀ key ∈ terminalKeys,
        (terminal.metadata.lookup key ≠ none ↔
          Fills (logTexts request) key) := by
  rcases except_bind_eq_ok hParse with ⟨parser, hNew, hRest⟩
  rcases except_bind_eq_ok hRest with ⟨lines, hLog, hRest'⟩
  rcases except_bind_eq_ok hRest' with ⟨final, hRead, hFinish⟩
  cases hStart :
      TerminalParser.new request.identity.graph request.start
        (some request.identity.maxSteps) with
  | error error =>
      rw [hStart] at hNew
      cases hNew
  | ok value =>
      rw [hStart] at hNew
      cases hNew
      cases hEnd : final.finish with
      | error error =>
          rw [hEnd] at hFinish
          cases hFinish
      | ok result =>
          rw [hEnd] at hFinish
          cases hFinish
          have hTexts : logTexts request = lines.map LogLine.text :=
            by rw [logTexts, hLog]
          rw [hTexts]
          exact
            ⟨nodup_metadata hEnd,
              (lines_readFrom hStart
                (lines_of_readLine hRead)).lookup_ne_none hEnd⟩

/- The request's own fields hide no field of the terminal. -/
theorem lookup_requestFields
    (request : Request)
    (terminal : TerminalResult)
    (workers : ResidentWorkers)
    (reused : Bool)
    (fields : Json.Fields)
    {key : String}
    (hKey : key ∈ terminalKeys) :
    (Json.insertAll
        (requestFields request terminal workers reused)
        fields).lookup key =
      fields.lookup key := by
  have hOthers :
      ∀ key ∈ terminalKeys, key ∉
        ["graph_hash", "model_artifact_hash", "devices",
          "requested_beam_width", "replay_valid", "log_path",
          "persistent_session"] := by
    decide
  have hNames :
      (requestFields request terminal workers reused).map
          Prod.fst =
        ["graph_hash", "model_artifact_hash", "devices",
          "requested_beam_width", "replay_valid", "log_path",
          "persistent_session"] :=
    rfl
  rw [Json.lookup_insertAll (by rw [hNames]; decide),
    KeyedList.lookup_eq_none_of_not_mem (by
      rw [hNames]
      exact hOthers key hKey),
    Option.none_or]

/- The log's own fields, and the base where it has none. -/
theorem composeMetadata_lookup
    {base : Json}
    {workers : ResidentWorkers}
    {output : Json.Fields}
    (hNodup : (terminal.metadata.map Prod.fst).Nodup)
    (hOutput :
      composeMetadata request base terminal workers reused =
        .ok output) :
    ∃ fields,
      base = .object fields ∧
      ∀ key ∈ terminalKeys,
        output.lookup key =
          (terminal.metadata.lookup key).or
            (fields.lookup key) := by
  rw [composeMetadata] at hOutput
  cases base with
  | object fields =>
      refine ⟨fields, rfl, fun key hKey => ?_⟩
      have hBoth :
          (Json.insertAll
              (requestFields request terminal workers reused)
              (Json.insertAll terminal.metadata fields)).lookup
              key =
            (terminal.metadata.lookup key).or
              (fields.lookup key) := by
        rw [lookup_requestFields request terminal workers reused
            _ hKey,
          Json.lookup_insertAll hNodup]
      cases reused with
      | false =>
          cases hOutput
          exact hBoth
      | true =>
          have hProfile : key ≠ "profile" := by
            rintro rfl
            exact absurd hKey (by decide)
          simp only [Json.asFields, if_true] at hOutput
          split at hOutput
          · cases hOutput
          · cases hOutput
            rw [Json.lookup_insert_of_ne hProfile]
            exact hBoth
  | null => cases hOutput
  | bool value => cases hOutput
  | integer value => cases hOutput
  | double value => cases hOutput
  | string value => cases hOutput
  | array items => cases hOutput

----------------
-- Runs
----------------

/- The outcome has the log's fields over those of the first. -/
def Shown
    (first : Json.Fields)
    (request : Request)
    (outcome : Outcome) : Prop :=
  if immediate request then
    ∀ key ∈ terminalKeys, fieldOf outcome key = none
  else
    ∃ terminal,
      parseRequest request = .ok terminal ∧
      ∀ key ∈ terminalKeys,
        fieldOf outcome key =
          (terminal.metadata.lookup key).or (first.lookup key)

/- The stored metadata has the first log's fields in it. -/
structure Warm
    (identity : SessionIdentity)
    (first : Json.Fields)
    (session : SearchSession) : Prop where
  workers : session.workers ≠ none
  identity : session.identity = some identity
  metadata :
    ∃ base,
      session.metadata = some (.object base) ∧
      ∀ key ∈ terminalKeys, base.lookup key = first.lookup key

/- An immediate outcome shows no field of a log. -/
theorem fieldOf_immediate
    (request : Request) :
    ∀ key ∈ terminalKeys,
      fieldOf (immediateOutcome request) key = none := by
  intro key hKey
  rw [fieldOf, immediateOutcome]
  split
  · exact
      KeyedList.lookup_eq_none_of_not_mem
        ((by decide :
          ∀ key ∈ terminalKeys,
            key ∉ ["already_solved", "replay_valid"]) key hKey)
  · exact
      KeyedList.lookup_eq_none_of_not_mem
        ((by decide :
          ∀ key ∈ terminalKeys, key ∉ ["budget_exhausted"]) key
          hKey)

/- A warm session shows the fields of its first log. -/
theorem Warm.run
    {first : Json.Fields}
    (hWarm : Warm identity first session)
    (hIdentity : request.identity = identity)
    (hRun : run request session = .ok outcome last) :
    Warm identity first last ∧ Shown first request outcome := by
  rcases run_eq_ok hRun with ⟨cancelled, hRuns⟩
  have hMatched :
      matched request { session with cancelled := cancelled } =
        { session with cancelled := cancelled } :=
    if_pos (hIdentity ▸ hWarm.identity)
  rw [hMatched] at hRuns
  cases hRuns with
  | immediate hImmediate =>
      refine
        ⟨⟨hWarm.workers, hWarm.identity, hWarm.metadata⟩, ?_⟩
      rw [Shown, if_pos hImmediate]
      exact fieldOf_immediate request
  | launched workers terminal output hImmediate hWorkers =>
      exact absurd hWorkers hWarm.workers
  | reused workers terminal base output hImmediate hWorkers hBase
      hParse hOutput =>
      refine
        ⟨⟨Option.some_ne_none _, hWarm.identity,
          hWarm.metadata⟩, ?_⟩
      rw [Shown, if_neg (by rw [hImmediate]; decide)]
      refine ⟨terminal, hParse, fun key hKey => ?_⟩
      rcases hWarm.metadata with ⟨stored, hStored, hFirst⟩
      rcases composeMetadata_lookup (parseRequest_eq_ok hParse).1
          hOutput with
        ⟨fields, hFields, hLookup⟩
      change session.metadata = some base at hBase
      rw [hBase, hFields] at hStored
      cases hStored
      rw [← hFirst key hKey]
      exact hLookup key hKey

/- It shows them for every later request. -/
theorem serve_warm
    {first : Json.Fields}
    (hWarm : Warm identity first session)
    (hIdentity :
      ∀ request ∈ requests, request.identity = identity)
    (hServe : serve requests session = outcomes.map .ok) :
    List.Forall₂ (Shown first) requests outcomes := by
  induction requests generalizing session outcomes with
  | nil =>
      have hNone : outcomes = [] :=
        List.map_eq_nil_iff.mp hServe.symm
      rw [hNone]
      exact List.Forall₂.nil
  | cons request requests ih =>
      rw [serve] at hServe
      cases hRun : run request session with
      | error error state =>
          rw [hRun] at hServe
          cases outcomes with
          | nil => cases hServe
          | cons outcome outcomes => cases hServe
      | ok outcome state =>
          rw [hRun] at hServe
          cases outcomes with
          | nil => cases hServe
          | cons other outcomes =>
              rw [List.map_cons, List.cons.injEq] at hServe
              cases hServe.1
              rcases hWarm.run
                  (hIdentity request List.mem_cons_self) hRun with
                ⟨hNext, hShown⟩
              exact
                List.Forall₂.cons hShown
                  (ih hNext
                    (fun r hr =>
                      hIdentity r (List.mem_cons_of_mem _ hr))
                    hServe.2)

/- The request that launches the workers. -/
def firstServed (requests : List Request) : Option Request :=
  requests.find? fun request => !immediate request

/-
  The caller's metadata name none of the fields that the log
  fills.
-/
def NoTerminalKey (metadata : Json) : Prop :=
  ∃ fields,
    metadata = .object fields ∧
    ∀ key ∈ terminalKeys, fields.lookup key = none

/- A cold session answers at once or becomes warm. -/
theorem run_cold
    (hIdentity : session.identity = none)
    (hMetadata : NoTerminalKey request.metadata)
    (hRun : run request session = .ok outcome last) :
    (immediate request = true ∧ last.workers = none ∧
        last.identity = none ∧
        ∀ first, Shown first request outcome) ∨
      (immediate request = false ∧
        ∃ terminal,
          parseRequest request = .ok terminal ∧
          Warm request.identity terminal.metadata last ∧
          Shown terminal.metadata request outcome) := by
  rcases run_eq_ok hRun with ⟨cancelled, hRuns⟩
  have hMatched :
      matched request { session with cancelled := cancelled } =
        released { session with cancelled := cancelled } :=
    if_neg (by
      change ¬ session.identity = _
      rw [hIdentity]
      exact fun hSame => nomatch hSame)
  rw [hMatched] at hRuns
  cases hRuns with
  | immediate hImmediate =>
      refine Or.inl ⟨hImmediate, rfl, rfl, fun first => ?_⟩
      rw [Shown, if_pos hImmediate]
      exact fieldOf_immediate request
  | launched workers terminal output hImmediate _ hParse hOutput =>
      rcases hMetadata with ⟨caller, hCaller, hClear⟩
      rcases composeMetadata_lookup (parseRequest_eq_ok hParse).1
          hOutput with
        ⟨fields, hFields, hLookup⟩
      rw [hCaller] at hFields
      cases hFields
      have hOwn :
          ∀ key ∈ terminalKeys,
            output.lookup key = terminal.metadata.lookup key := by
        intro key hKey
        rw [hLookup key hKey, hClear key hKey, Option.or_none]
      refine
        Or.inr
          ⟨hImmediate, terminal, hParse,
            ⟨Option.some_ne_none _, rfl, output, rfl, hOwn⟩, ?_⟩
      rw [Shown, if_neg (by rw [hImmediate]; decide)]
      refine ⟨terminal, hParse, fun key hKey => ?_⟩
      change output.lookup key = _
      rw [hOwn key hKey, Option.or_self]
  | reused workers terminal base output hImmediate hSome =>
      exact absurd rfl hSome

/- Every outcome shows the first served log through its own. -/
theorem serve_fields
    (hWorkers : session.workers = none)
    (hNone : session.identity = none)
    (hIdentity :
      ∀ request ∈ requests, request.identity = identity)
    (hMetadata :
      ∀ request ∈ requests, NoTerminalKey request.metadata)
    (hServe : serve requests session = outcomes.map .ok) :
    ∃ first,
      List.Forall₂ (Shown first) requests outcomes ∧
      ∀ request, firstServed requests = some request →
        ∃ terminal,
          parseRequest request = .ok terminal ∧
          terminal.metadata = first := by
  induction requests generalizing session outcomes with
  | nil =>
      have hEmpty : outcomes = [] :=
        List.map_eq_nil_iff.mp hServe.symm
      rw [hEmpty]
      exact ⟨[], List.Forall₂.nil, fun _ hFound => nomatch hFound⟩
  | cons request requests ih =>
      rw [serve] at hServe
      cases hRun : run request session with
      | error error state =>
          rw [hRun] at hServe
          cases outcomes with
          | nil => cases hServe
          | cons outcome outcomes => cases hServe
      | ok outcome state =>
          rw [hRun] at hServe
          cases outcomes with
          | nil => cases hServe
          | cons other outcomes =>
              rw [List.map_cons, List.cons.injEq] at hServe
              cases hServe.1
              have hRest :
                  ∀ r ∈ requests, r.identity = identity :=
                fun r hr =>
                  hIdentity r (List.mem_cons_of_mem _ hr)
              rcases run_cold hNone
                  (hMetadata request List.mem_cons_self) hRun with
                ⟨hImmediate, hWorkers', hNone', hShown⟩ |
                ⟨hImmediate, terminal, hParse, hWarm, hShown⟩
              · rcases ih hWorkers' hNone' hRest
                    (fun r hr =>
                      hMetadata r (List.mem_cons_of_mem _ hr))
                    hServe.2 with
                  ⟨first, hAll, hFirst⟩
                refine
                  ⟨first, List.Forall₂.cons (hShown first) hAll,
                    fun r hFound => hFirst r ?_⟩
                rwa [firstServed, List.find?_cons, hImmediate]
                  at hFound
              · rw [hIdentity request List.mem_cons_self] at hWarm
                refine
                  ⟨terminal.metadata,
                    List.Forall₂.cons hShown
                      (serve_warm hWarm hRest hServe.2),
                    fun r hFound => ?_⟩
                rw [firstServed, List.find?_cons, hImmediate]
                  at hFound
                cases hFound
                exact ⟨terminal, hParse, rfl⟩

----------------
-- Leaks
----------------

/- The outcome has the fields of its own log, and no others. -/
def OwnFields (request : Request) (outcome : Outcome) : Prop :=
  if immediate request then
    ∀ key ∈ terminalKeys, fieldOf outcome key = none
  else
    ∃ terminal,
      parseRequest request = .ok terminal ∧
      ∀ key ∈ terminalKeys,
        fieldOf outcome key = terminal.metadata.lookup key

/- Every outcome has the fields of its own request. -/
def LeaksNothing
    (requests : List Request)
    (outcomes : List Outcome) : Prop :=
  List.Forall₂ OwnFields requests outcomes

/- Two requests that look for the same, with the same log. -/
structure SameRequest (a b : Request) : Prop where
  identity : a.identity = b.identity
  start : a.start = b.start
  log : a.attempt.log = b.attempt.log

/- What came before a request makes no difference. -/
def Indistinguishable
    (requests others : List Request)
    (outcomes results : List Outcome) : Prop :=
  ∀ (k j : Nat) (a b : Request) (outcome result : Outcome),
    requests[k]? = some a → others[j]? = some b →
    outcomes[k]? = some outcome → results[j]? = some result →
    SameRequest a b →
    ∀ key ∈ terminalKeys,
      fieldOf outcome key = fieldOf result key

/- No later log is silent where the first one speaks. -/
def LogsCover (requests : List Request) : Prop :=
  ∀ first, firstServed requests = some first →
    ∀ request ∈ requests, immediate request = false →
      Covers (logTexts first) (logTexts request)

/- Successful requests of one identity on a new session. -/
structure Served
    (requests : List Request)
    (outcomes : List Outcome) : Prop where
  identity :
    ∃ identity, ∀ request ∈ requests, request.identity = identity
  metadata :
    ∀ request ∈ requests, NoTerminalKey request.metadata
  successful :
    ∃ process,
      serve requests (SearchSession.new process) =
        outcomes.map .ok

/-
  What is shown is the request's own if its log covers the
  first.
-/
theorem shown_own_iff
    {first : Request}
    (hFirst : parseRequest first = .ok terminal)
    (hShown : Shown terminal.metadata request outcome) :
    OwnFields request outcome ↔
      (immediate request = false →
        Covers (logTexts first) (logTexts request)) := by
  cases hImmediate : immediate request with
  | true =>
      rw [Shown, if_pos hImmediate] at hShown
      rw [OwnFields, if_pos hImmediate]
      exact iff_of_true hShown (fun hFalse => nomatch hFalse)
  | false =>
      have hNot : ¬ immediate request = true := by
        rw [hImmediate]
        decide
      rw [Shown, if_neg hNot] at hShown
      rw [OwnFields, if_neg hNot]
      rcases hShown with ⟨own, hParse, hFields⟩
      have hOwnFills := (parseRequest_eq_ok hParse).2
      have hFirstFills := (parseRequest_eq_ok hFirst).2
      rw [← fills_iff_covers]
      constructor
      · rintro ⟨other, hOther, hSame⟩ _ key hKey hEarlier
        cases hParse.symm.trans hOther
        have hBoth := (hFields key hKey).symm.trans
          (hSame key hKey)
        refine (hOwnFills key hKey).mp fun hNone => ?_
        rw [hNone, Option.none_or] at hBoth
        exact (hFirstFills key hKey).mpr hEarlier hBoth
      · intro hCovers
        refine ⟨own, hParse, fun key hKey => ?_⟩
        rw [hFields key hKey]
        cases hLookup : own.metadata.lookup key with
        | some value => rfl
        | none =>
            rw [Option.none_or]
            by_contra hSome
            exact
              (hOwnFills key hKey).mpr
                (hCovers rfl key hKey
                  ((hFirstFills key hKey).mp hSome))
                hLookup

/- Without a first log every answer was immediate. -/
theorem firstServed_eq_none
    (hNone : firstServed requests = none) :
    ∀ request ∈ requests, immediate request = true := by
  intro request hMember
  have hNot := List.find?_eq_none.mp hNone request hMember
  cases hImmediate : immediate request with
  | true => rfl
  | false =>
      rw [hImmediate] at hNot
      exact absurd rfl hNot

theorem forall_iff_of_forall₂
    {α β : Type}
    {shown : α → β → Prop}
    (own : α → β → Prop)
    (cond : α → Prop)
    {xs : List α}
    {ys : List β}
    (hShown : List.Forall₂ shown xs ys)
    (hIff : ∀ x ∈ xs, ∀ y, shown x y → (own x y ↔ cond x)) :
    List.Forall₂ own xs ys ↔ ∀ x ∈ xs, cond x := by
  induction hShown with
  | nil =>
      exact iff_of_true List.Forall₂.nil
        (fun _ hMember => nomatch hMember)
  | cons hHead _ ih =>
      rw [List.forall₂_cons, List.forall_mem_cons,
        hIff _ List.mem_cons_self _ hHead,
        ih fun x hx => hIff x (List.mem_cons_of_mem _ hx)]

/- Nothing leaks exactly when every log covers the first. -/
theorem Served.leaksNothing_iff_logsCover
    (hServed : Served requests outcomes) :
    LeaksNothing requests outcomes ↔ LogsCover requests := by
  rcases hServed.identity with ⟨identity, hIdentity⟩
  rcases hServed.successful with ⟨process, hServe⟩
  rcases serve_fields rfl rfl hIdentity hServed.metadata hServe
    with ⟨first, hShown, hFirst⟩
  cases hFound : firstServed requests with
  | none =>
      have hAll := firstServed_eq_none hFound
      rw [LeaksNothing,
        forall_iff_of_forall₂ OwnFields (fun _ => True) hShown
          fun request hMember outcome hHere => by
            rw [Shown, if_pos (hAll request hMember)] at hHere
            rw [OwnFields, if_pos (hAll request hMember)]
            exact iff_of_true hHere trivial]
      refine iff_of_true (fun _ _ => trivial) ?_
      intro other hOther
      rw [hFound] at hOther
      cases hOther
  | some launcher =>
      rcases hFirst launcher hFound with
        ⟨terminal, hParse, rfl⟩
      rw [LeaksNothing,
        forall_iff_of_forall₂ OwnFields
          (fun request =>
            immediate request = false →
              Covers (logTexts launcher) (logTexts request))
          hShown
          fun _ _ _ hHere => shown_own_iff hParse hHere]
      constructor
      · intro hCovers other hOther request hMember
        rw [hFound] at hOther
        cases hOther
        exact hCovers request hMember
      · intro hCover request hMember
        exact hCover launcher hFound request hMember

/- Own fields agree for requests with the same log. -/
theorem OwnFields.same
    {a b : Request}
    {result : Outcome}
    (hSame : SameRequest a b)
    (hOwn : OwnFields a outcome)
    (hOther : OwnFields b result) :
    ∀ key ∈ terminalKeys,
      fieldOf outcome key = fieldOf result key := by
  intro key hKey
  have hImmediate : immediate a = immediate b := by
    rw [immediate, immediate, hSame.identity, hSame.start]
  have hParse : parseRequest a = parseRequest b := by
    rw [parseRequest, parseRequest, hSame.identity, hSame.start,
      hSame.log]
  cases hNow : immediate a with
  | true =>
      rw [OwnFields, if_pos hNow] at hOwn
      rw [OwnFields, if_pos (hImmediate ▸ hNow)] at hOther
      rw [hOwn key hKey, hOther key hKey]
  | false =>
      rw [OwnFields, hNow, if_neg Bool.false_ne_true] at hOwn
      rw [OwnFields, ← hImmediate, hNow,
        if_neg Bool.false_ne_true] at hOther
      rcases hOwn with ⟨terminal, hTerminal, hFields⟩
      rcases hOther with ⟨other, hOther, hOtherFields⟩
      rw [hParse, hOther] at hTerminal
      cases hTerminal
      rw [hFields key hKey, hOtherFields key hKey]

/- A session that leaks nothing tells no two pasts apart. -/
theorem LeaksNothing.indistinguishable
    {others : List Request}
    {results : List Outcome}
    (hOwn : LeaksNothing requests outcomes)
    (hOther : LeaksNothing others results) :
    Indistinguishable requests others outcomes results := by
  intro k j a b outcome result hA hB hOutcome hResult hSame
  rcases List.getElem?_eq_some_iff.mp hA with ⟨hk, rfl⟩
  rcases List.getElem?_eq_some_iff.mp hB with ⟨hj, rfl⟩
  rcases List.getElem?_eq_some_iff.mp hOutcome with ⟨hk', rfl⟩
  rcases List.getElem?_eq_some_iff.mp hResult with ⟨hj', rfl⟩
  exact
    OwnFields.same hSame (List.Forall₂.get hOwn hk hk')
      (List.Forall₂.get hOther hj hj')

/- A session leaks nothing exactly when its first log does not
speak where a later one is silent. -/
theorem leaksNothing_iff
    (requests others : List Request)
    (outcomes results : List Outcome)
    (hServed : Served requests outcomes)
    (hOther : Served others results) :
    (LeaksNothing requests outcomes ∧
        LeaksNothing others results ∧
        Indistinguishable requests others outcomes results) ↔
      LogsCover requests ∧ LogsCover others := by
  rw [← hServed.leaksNothing_iff_logsCover,
    ← hOther.leaksNothing_iff_logsCover]
  constructor
  · rintro ⟨hOwn, hOwn', -⟩
    exact ⟨hOwn, hOwn'⟩
  · rintro ⟨hOwn, hOwn'⟩
    exact ⟨hOwn, hOwn', hOwn.indistinguishable hOwn'⟩

/- A session of one device for one swap. -/
def swapIdentity : SessionIdentity where
  graph := { center := [0, 1], generators := [[0, 1], [1, 0]] }
  graphHash := String.ofList (List.replicate 64 'a')
  modelArtifactHash := String.ofList (List.replicate 64 'b')
  modelBackend := "cuda"
  runtimeBuild :=
    .object
      [("binary_sha256",
        .string (String.ofList (List.replicate 64 'c')))]
  devices := [0]
  beamWidth := 64
  maxSteps := 3
  options := .object []
  cudaVisibleDevices := none
  cudaDeviceOrder := none

/- A request whose call goes through, with this log. -/
def swapRequest (log : List String) : Request where
  identity := swapIdentity
  launch := { command := ["run"], protocolCommand := ["probe"] }
  start := [1, 0]
  runDir := "run"
  metadata := .object []
  attempt :=
    { process := 7
      cancelled := false
      deadlineFits := true
      timeoutPositive := true
      inTime := fun _ => true
      outcomeExists := false
      oldClosed := .ok ()
      probeLaunch := .ok ()
      probeReply :=
        .ok (.object [("protocol", .string "resident-search-v1")])
      probeFinish := .ok ()
      launched := .ok [100]
      submitted := .ok ()
      log :=
        .ok
          (log.map fun line =>
            { bytes := line.length + 1, text := line.toList })
      elapsed := .finite false 0
      written := .ok () }

/- A log with an answer. -/
def solvedLog : List String :=
  ["GLOBAL_BEAM_WIDTH_EFFECTIVE=64",
    "puzzle_solved=1 puzzle_id=0 seconds=1 " ++
      "solution_length=1 solution=m1"]

/- The ranks report two parent batches when they start. -/
def startedLog : List String :=
  ["B_MICRO=32", "B_MICRO=48"] ++ solvedLog

/- The batch sizes that an outcome tells. -/
def batchValues (outcome : Outcome) : Option Json :=
  fieldOf outcome "observed_parent_batch_by_rank_values"

/- The same of a result. -/
def batchResult (result : Except Error Outcome) :
    Option (Option Json) :=
  result.toOption.map batchValues

theorem served_of_batchValues
    {logs : List (List String)}
    {values : List (Option Json)}
    (hValues :
      (serve (logs.map swapRequest) (SearchSession.new 7)).map
          batchResult =
        values.map some) :
    ∃ outcomes,
      Served (logs.map swapRequest) outcomes ∧
      outcomes.map batchValues = values := by
  have hSuccess :
      ∀ (results : List (Except Error Outcome))
        (values : List (Option Json)),
        results.map batchResult = values.map some →
        ∃ outcomes : List Outcome,
          results = outcomes.map .ok ∧
          outcomes.map batchValues = values := by
    intro results
    induction results with
    | nil =>
        intro values hEqual
        exact
          ⟨[], rfl, (List.map_eq_nil_iff.mp hEqual.symm).symm⟩
    | cons result results ih =>
        intro values hEqual
        cases values with
        | nil => cases hEqual
        | cons value values =>
            rw [List.map_cons, List.map_cons,
              List.cons.injEq] at hEqual
            rcases ih values hEqual.2 with
              ⟨outcomes, hResults, hFields⟩
            cases result with
            | error error => cases hEqual.1
            | ok outcome =>
                refine
                  ⟨outcome :: outcomes, by rw [hResults]; rfl, ?_⟩
                rw [List.map_cons, hFields,
                  Option.some.inj hEqual.1]
  rcases hSuccess _ _ hValues with ⟨outcomes, hServe, hFields⟩
  refine ⟨outcomes, ⟨⟨swapIdentity, ?_⟩, ?_, 7, hServe⟩, hFields⟩
  · intro request hMember
    rcases List.mem_map.mp hMember with ⟨log, -, rfl⟩
    rfl
  · intro request hMember
    rcases List.mem_map.mp hMember with ⟨log, -, rfl⟩
    exact ⟨[], rfl, fun _ _ => rfl⟩

/- The batches of the first log are still shown for a log that
says nothing of them. -/
theorem session_leaks_parentBatches :
    ∃ outcomes,
      Served [swapRequest startedLog, swapRequest solvedLog]
        outcomes ∧
      outcomes[1]?.bind batchValues =
        some (.array [.integer 32, .integer 48]) ∧
      ¬ LeaksNothing
        [swapRequest startedLog, swapRequest solvedLog]
        outcomes := by
  have hValues :
      (serve ([startedLog, solvedLog].map swapRequest)
            (SearchSession.new 7)).map batchResult =
        [some (Json.array [.integer 32, .integer 48]),
          some (Json.array [.integer 32, .integer 48])].map
          some := by
    decide +kernel
  have hSilent :
      (parseRequest (swapRequest solvedLog)).toOption.map
          (fun terminal =>
            terminal.metadata.lookup
              "observed_parent_batch_by_rank_values") =
        some none := by
    decide +kernel
  rcases served_of_batchValues hValues with
    ⟨outcomes, hServed, hFields⟩
  rcases outcomes with _ | ⟨first, _ | ⟨second, _ | ⟨third, rest⟩⟩⟩
  · cases hFields
  · exact absurd (congrArg List.length hFields) (by simp)
  · rw [List.map_cons, List.map_cons, List.cons.injEq,
      List.cons.injEq] at hFields
    refine ⟨[first, second], hServed, hFields.2.1, fun hOwn => ?_⟩
    rcases hOwn with _ | ⟨-, _ | ⟨hSecond, -⟩⟩
    rw [OwnFields, if_neg (by decide)] at hSecond
    rcases hSecond with ⟨terminal, hParse, hOwn⟩
    rw [hParse] at hSilent
    have hShown :=
      hOwn "observed_parent_batch_by_rank_values" (by decide)
    have hNone : batchValues second = none :=
      hShown.trans (Option.some.inj hSilent)
    rw [hFields.2.1] at hNone
    cases hNone
  · exact absurd (congrArg List.length hFields) (by simp)

theorem leaksNothing_iff_sameLog :
    ∃ outcomes,
      Served [swapRequest startedLog, swapRequest startedLog]
        outcomes ∧
      LeaksNothing
        [swapRequest startedLog, swapRequest startedLog]
        outcomes := by
  have hValues :
      (serve ([startedLog, startedLog].map swapRequest)
            (SearchSession.new 7)).map batchResult =
        [some (Json.array [.integer 32, .integer 48]),
          some (Json.array [.integer 32, .integer 48])].map
          some := by
    decide +kernel
  rcases served_of_batchValues hValues with
    ⟨outcomes, hServed, -⟩
  have hCover :
      LogsCover
        [swapRequest startedLog, swapRequest startedLog] := by
    intro first hFirst request hMember _
    have hSame : request = first := by
      have hStarts : immediate (swapRequest startedLog) = false :=
        by decide
      rw [firstServed, List.find?_cons, hStarts] at hFirst
      cases hFirst
      rcases List.mem_cons.mp hMember with rfl | hMember
      · rfl
      · exact List.mem_singleton.mp hMember
    exact hSame ▸ ⟨id, fun _ => id⟩
  exact
    ⟨outcomes, hServed,
      ((leaksNothing_iff _ _ outcomes outcomes hServed hServed).mpr
        ⟨hCover, hCover⟩).1⟩

end Search

end BeamSearch
