import CatalogSearch.Proofs.Criteria.Compilation

/-!
# The cache of intents

`serveAll` answers requests one after another, for the intents of a type or for the criteria of an
instance.  Main statement: `requests_served_afresh`.  Each request is answered as from a fresh reading
of its type.  Only the first one of a type that extracts logs the extraction and adds an entry, and
later ones get the tuple that it made; those of a type that does not extract do nothing.

Two tuples may hold the same intents.  To tell them apart a `Ledger` keeps with each tuple the number
of the call that made it, and is the cache without these numbers (`erase_run`).
-/

set_option autoImplicit false

namespace CatalogSearch.Criteria

/-! ## Keys and entries -/

def DescriptorType.key? : DescriptorType → Option Nat
  | .declared d => some d.key
  | _ => none

def DescriptorType.extraction : DescriptorType → List LogRecord
  | .declared d =>
      match d.intents? with
      | .ok intents => [.extracted d.name intents.length]
      | .error _ => []
  | _ => []

def DescriptorType.entry : DescriptorType → List (Nat × List FieldIntent)
  | .declared d =>
      match d.intents? with
      | .ok intents => [(d.key, intents)]
      | .error _ => []
  | _ => []

def memo {α : Type} (entries : List (Nat × α)) (key : Nat) (made : Option α) : List (Nat × α) :=
  match entries.lookup key with
  | some _ => entries
  | none => entries ++ (made.map fun a => (key, a)).toList

theorem lookup_memo {α : Type} (entries : List (Nat × α)) (key other : Nat) (made : Option α) :
    (memo entries key made).lookup other =
      if other = key then (entries.lookup key).or made else entries.lookup other := by
  by_cases ho : other = key
  · subst ho
    simp only [memo, if_true]
    rcases hknown : entries.lookup other with _ | known
    · rcases made with _ | a <;> simp [List.lookup_append, hknown]
    · simp [hknown]
  · simp only [memo, if_neg ho]
    rcases entries.lookup key with _ | known
    · rcases made with _ | a <;>
        simp [List.lookup_append, List.lookup_cons, beq_eq_false_iff_ne.mpr ho]
    · rfl

theorem entries_read_declared (cache : IntentCache) (d : Declaration) :
    (cache.read (.declared d)).cache.entries = memo cache.entries d.key d.intents?.toOption := by
  simp only [IntentCache.read, IntentCache.readDeclared, memo]
  rcases cache.entries.lookup d.key with _ | known
  · rcases d.intents? with e | intents
    · exact (List.append_nil _).symm
    · rfl
  · rfl

/-- How a type is read that the cache has, if `known`, or has not. -/
structure ReadsAs (cache : IntentCache) (type : DescriptorType) (known : Bool) : Prop where
  result : (cache.read type).result = type.intents?
  log : (cache.read type).log = if known then [] else type.extraction
  entries : (cache.read type).cache.entries = cache.entries ++ if known then [] else type.entry

theorem readsAs_declared {cache : IntentCache} {d : Declaration} {known : Bool}
    (h : cache.entries.lookup d.key = if known then d.intents?.toOption else none) :
    ReadsAs cache (.declared d) known := by
  rcases hintents : d.intents? with e | intents
  · have hnone : cache.entries.lookup d.key = none := by
      rw [h, hintents]
      exact ite_self _
    constructor <;>
      simp [IntentCache.read, IntentCache.readDeclared, hnone, hintents, DescriptorType.intents?,
        DescriptorType.extraction, DescriptorType.entry]
  · rw [hintents] at h
    cases known <;>
      constructor <;>
      simp [IntentCache.read, IntentCache.readDeclared, h, hintents, DescriptorType.intents?,
        DescriptorType.extraction, DescriptorType.entry, Except.toOption]

theorem readsAs_of_key?_eq_none {cache : IntentCache} {type : DescriptorType}
    (h : type.key? = none) (known : Bool) : ReadsAs cache type known := by
  cases type with
  | declared d => cases h
  | foreign shown =>
      exact ⟨rfl, (ite_self _).symm, by simp [IntentCache.read, DescriptorType.entry]⟩
  | unhashable kind =>
      exact ⟨rfl, (ite_self _).symm, by simp [IntentCache.read, DescriptorType.entry]⟩

/-! ## Records -/

/-- A record of another kind than that of a type's extraction. -/
def LogRecord.Repeats : LogRecord → Prop
  | extracted _ _ => False
  | _ => True

theorem repeats_compileScalar (i : FieldIntent) (path : String) (v : Value) :
    ∀ record ∈ (compileScalar i path v).log, record.Repeats := by
  cases v with
  | text s => simp [compileScalar]
  | _ =>
      by_cases hlike : i.operation = .like <;>
        simp [compileScalar, hlike, LogRecord.Repeats]

theorem repeats_compileField {i : FieldIntent} {v : Value} {compiled : CompiledField}
    (h : compileField i v = .ok compiled) : ∀ record ∈ compiled.log, record.Repeats := by
  simp only [compileField] at h
  split at h
  · obtain rfl := Except.ok.inj h
    simp
  · cases hkind : i.kind with
    | term =>
        simp only [hkind, Except.ok.injEq] at h
        subst h
        cases v <;> simp [compileTerm, LogRecord.Repeats]
    | range =>
        simp only [hkind] at h
        cases v with
        | range lower upper =>
            simp only [compileRange] at h
            split at h
            · cases h
            · obtain rfl := Except.ok.inj h
              simp
        | _ =>
            obtain rfl := Except.ok.inj h
            simp [LogRecord.Repeats]
    | single =>
        simp only [hkind, compileSingle] at h
        split at h
        · cases h
        · split at h
          · obtain rfl := Except.ok.inj h
            simp
          · obtain rfl := Except.ok.inj h
            exact repeats_compileScalar i _ v
    | none =>
        simp only [hkind, Except.ok.injEq] at h
        subst h
        simp

theorem repeats_conjunctsOf? (instance_ : Instance) : ∀ (intents : List FieldIntent)
    (log : List LogRecord), (∀ record ∈ log, record.Repeats) →
      ∀ record ∈ (conjunctsOf? instance_ intents log).2, record.Repeats := by
  intro intents
  induction intents with
  | nil => intro log h; exact h
  | cons i rest ih =>
      intro log h
      rcases hread : i.read instance_ with x | v
      · rwa [conjunctsOf?_of_unread hread]
      · rcases hcompiled : compileField i v with x | compiled
        · rwa [conjunctsOf?_of_uncompiled hread hcompiled]
        · rw [conjunctsOf?_of_compiled hread hcompiled]
          exact ih _ (List.forall_mem_append.mpr ⟨h, repeats_compileField hcompiled⟩)

theorem repeats_compileFields (i : Instance) (intents : List FieldIntent) :
    ∀ record ∈ (compileFields i intents).2, record.Repeats := by
  rcases hfields : readFields? i intents with x | fields
  · simp [compileFields_of_unread hfields]
  · rw [compileFields_of_read hfields]
    exact repeats_conjunctsOf? i intents [] (by simp)

/-! ## Ledgers -/

/-- A tuple of intents, with the number of the call that made it. -/
structure Made where
  intents : List FieldIntent
  call : Nat

abbrev Ledger : Type := List (Nat × Made)

namespace Ledger

def erase (l : Ledger) : IntentCache := ⟨l.map fun entry => (entry.1, entry.2.intents)⟩

def read (l : Ledger) (call : Nat) : DescriptorType → Except DescriptorError Made × Ledger
  | .declared d =>
      match l.lookup d.key with
      | some made => (.ok made, l)
      | none =>
          match d.intents? with
          | .ok intents => (.ok ⟨intents, call⟩, l ++ [(d.key, ⟨intents, call⟩)])
          | .error e => (.error e, l)
  | type => (type.intents?.map (Made.mk · call), l)

def run (l : Ledger) (call : Nat) : List DescriptorType → Ledger
  | [] => l
  | type :: rest => run (l.read call type).2 (call + 1) rest

theorem lookup_erase (key : Nat) : ∀ l : Ledger,
    l.erase.entries.lookup key = (l.lookup key).map Made.intents := by
  intro l
  induction l with
  | nil => rfl
  | cons entry rest ih =>
      obtain ⟨k, made⟩ := entry
      simp only [erase, List.map_cons, List.lookup_cons] at ih ⊢
      rcases key == k with _ | _
      · exact ih
      · rfl

/-- Without the numbers a ledger is read as the cache. -/
theorem erase_read (l : Ledger) (call : Nat) (type : DescriptorType) :
    (l.erase.read type).result = (l.read call type).1.map Made.intents ∧
      (l.erase.read type).cache = (l.read call type).2.erase := by
  cases type with
  | declared d =>
      simp only [IntentCache.read, IntentCache.readDeclared, read, lookup_erase]
      rcases l.lookup d.key with _ | made
      · rcases d.intents? with e | intents
        · exact ⟨rfl, rfl⟩
        · exact ⟨rfl, by simp [erase]⟩
      · exact ⟨rfl, rfl⟩
  | foreign shown => exact ⟨rfl, rfl⟩
  | unhashable kind => exact ⟨rfl, rfl⟩

theorem erase_run : ∀ (types : List DescriptorType) (l : Ledger) (call : Nat),
    (l.run call types).erase = types.foldl (fun cache type => (cache.read type).cache) l.erase := by
  intro types
  induction types with
  | nil => intro l call; rfl
  | cons type rest ih =>
      intro l call
      rw [run, ih, List.foldl_cons, (l.erase_read call type).2]

theorem read_declared (l : Ledger) (call : Nat) (d : Declaration) :
    (l.read call (.declared d)).2 =
      memo l d.key (d.intents?.toOption.map (Made.mk · call)) := by
  simp only [read, memo]
  rcases l.lookup d.key with _ | made
  · rcases d.intents? with e | intents
    · exact (List.append_nil _).symm
    · rfl
  · rfl

theorem lookup_read_of_ne (l : Ledger) (call : Nat) {type : DescriptorType} {key : Nat}
    (h : type.key? ≠ some key) : (l.read call type).2.lookup key = l.lookup key := by
  cases type with
  | declared d =>
      rw [read_declared, lookup_memo, if_neg]
      rintro rfl
      exact h rfl
  | foreign shown => rfl
  | unhashable kind => rfl

end Ledger

/-! ## What a ledger knows -/

def asked (types : List DescriptorType) (type : DescriptorType) : Bool :=
  types.any fun other => other.key? = type.key?

/-- The number of the first call for a type; that of the next call, if there was none. -/
def firstCall (types : List DescriptorType) (type : DescriptorType) : Nat :=
  types.findIdx fun other => other.key? = type.key?

def KeysTellTypes (types : List DescriptorType) : Prop :=
  ∀ d d', .declared d ∈ types → .declared d' ∈ types → d.key = d'.key → d = d'

/-- Of the types `among`, the ledger has those read before that extract, each since its first call. -/
def Knows (l : Ledger) (among done : List DescriptorType) : Prop :=
  ∀ d, .declared d ∈ among → l.lookup d.key =
    if asked done (.declared d) then
      d.intents?.toOption.map (Made.mk · (firstCall done (.declared d)))
    else none

section Knows

variable {l : Ledger} {among done : List DescriptorType}

theorem firstCall_lt_length_iff {types : List DescriptorType} {type : DescriptorType} :
    firstCall types type < types.length ↔ asked types type = true := by
  simp [firstCall, asked, List.findIdx_lt_length]

theorem firstCall_of_not_asked {types : List DescriptorType} {type : DescriptorType}
    (h : asked types type = false) : firstCall types type = types.length := by
  have hle : firstCall types type ≤ types.length := List.findIdx_le_length
  have hge : ¬ firstCall types type < types.length := by simp [firstCall_lt_length_iff, h]
  omega

theorem asked_append_singleton (done : List DescriptorType) (type other : DescriptorType) :
    asked (done ++ [other]) type = (asked done type || decide (other.key? = type.key?)) := by
  simp [asked]

theorem firstCall_append_of_asked {type : DescriptorType} (h : asked done type = true)
    (other : DescriptorType) : firstCall (done ++ [other]) type = firstCall done type := by
  have hlt := firstCall_lt_length_iff.mpr h
  rw [firstCall] at hlt ⊢
  rw [List.findIdx_append, if_pos hlt, firstCall]

theorem firstCall_append_of_not_asked {type other : DescriptorType} (h : asked done type = false)
    (same : other.key? = type.key?) : firstCall (done ++ [other]) type = done.length := by
  have heq := firstCall_of_not_asked h
  rw [firstCall] at heq ⊢
  rw [List.findIdx_append, heq, if_neg (Nat.lt_irrefl _)]
  simp [same]

theorem knows_nil (among : List DescriptorType) : Knows [] among [] := by
  intro d _
  rfl

/-- A call is given the tuple that the first call for the type made. -/
theorem Knows.read (knows : Knows l among done) {type : DescriptorType} (htype : type ∈ among) :
    (l.read done.length type).1 = type.intents?.map (Made.mk · (firstCall done type)) := by
  cases type with
  | declared d =>
      have hlookup := knows d htype
      simp only [Ledger.read, hlookup, DescriptorType.intents?]
      cases hasked : asked done (.declared d) with
      | true => cases d.intents? <;> rfl
      | false =>
          rw [firstCall_of_not_asked hasked]
          cases d.intents? <;> rfl
  | foreign shown => rfl
  | unhashable kind => rfl

theorem Knows.step (knows : Knows l among done) (one : KeysTellTypes among)
    {type : DescriptorType} (htype : type ∈ among) :
    Knows (l.read done.length type).2 among (done ++ [type]) := by
  intro d hd
  have hlookup := knows d hd
  rw [asked_append_singleton]
  by_cases hkey : type.key? = DescriptorType.key? (.declared d)
  · -- The type is the one looked up, and its tuple is that of its first call.
    cases type with
    | declared d' =>
        obtain rfl := one d' d htype hd (Option.some.inj hkey)
        rw [Ledger.read_declared, lookup_memo, if_pos rfl, hlookup, decide_eq_true hkey,
          Bool.or_true, if_pos rfl]
        cases hasked : asked done (.declared d') with
        | true =>
            rw [firstCall_append_of_asked hasked]
            cases d'.intents? <;> rfl
        | false =>
            rw [firstCall_append_of_not_asked hasked hkey]
            cases d'.intents? <;> rfl
    | foreign shown => cases hkey
    | unhashable kind => cases hkey
  · rw [decide_eq_false hkey, Bool.or_false, Ledger.lookup_read_of_ne _ _ hkey, hlookup]
    cases hasked : asked done (.declared d) with
    | true => rw [firstCall_append_of_asked hasked]
    | false => rfl

theorem knows_run (one : KeysTellTypes among) : ∀ (types : List DescriptorType)
    {done : List DescriptorType} {l : Ledger}, types ⊆ among → Knows l among done →
      Knows (l.run done.length types) among (done ++ types) := by
  intro types
  induction types with
  | nil =>
      intro done l _ knows
      rwa [List.append_nil]
  | cons type rest ih =>
      intro done l hamong knows
      obtain ⟨htype, hrest⟩ := List.cons_subset.mp hamong
      have later := ih hrest (knows.step one htype)
      rwa [List.length_append, List.length_singleton, List.append_assoc] at later

theorem Knows.readsAs (knows : Knows l among done) {type : DescriptorType} (htype : type ∈ among) :
    ReadsAs l.erase type (asked done type) := by
  cases type with
  | declared d =>
      refine readsAs_declared ?_
      rw [Ledger.lookup_erase, knows d htype]
      cases asked done (.declared d) with
      | true => cases d.intents? <;> rfl
      | false => rfl
  | foreign shown => exact readsAs_of_key?_eq_none rfl _
  | unhashable kind => exact readsAs_of_key?_eq_none rfl _

end Knows

/-! ## Requests -/

/-- What the cache is read for: the intents of a type, or the criteria of an instance. -/
inductive Request where
  | intents (type : DescriptorType)
  | criteria (instance_ : Instance)

def Request.type : Request → DescriptorType
  | intents type => type
  | criteria i => i.type

inductive Answer where
  | intents (result : Except DescriptorError (List FieldIntent))
  | criteria (result : Except CriteriaError CompiledCriteria)

structure Served where
  answer : Answer
  cache : IntentCache
  log : List LogRecord

def Request.serve (cache : IntentCache) : Request → Served
  | intents type =>
      ⟨.intents (cache.read type).result, (cache.read type).cache, (cache.read type).log⟩
  | criteria i =>
      ⟨.criteria (compile cache i).result, (compile cache i).cache, (compile cache i).log⟩

def serveAll : IntentCache → List Request → List Served
  | _, [] => []
  | cache, r :: rest => r.serve cache :: serveAll (r.serve cache).cache rest

/-- The answer from a fresh reading of the type, and what is logged beside the reading. -/
def Request.fresh : Request → Answer × List LogRecord
  | intents type => (.intents type.intents?, [])
  | criteria i =>
      match i.type.intents? with
      | .error e => (.criteria (.error (.descriptor e)), [])
      | .ok found => (.criteria (compileFields i found).1, (compileFields i found).2)

theorem Request.serve_eq {cache : IntentCache} (r : Request)
    (h : (cache.read r.type).result = r.type.intents?) :
    r.serve cache =
      ⟨r.fresh.1, (cache.read r.type).cache, (cache.read r.type).log ++ r.fresh.2⟩ := by
  cases r with
  | intents type =>
      simp only [serve, fresh, List.append_nil]
      rw [show (cache.read type).result = type.intents? from h]
      rfl
  | criteria i =>
      have hread : (cache.read i.type).result = i.type.intents? := h
      simp only [serve, fresh, compile, hread]
      cases i.type.intents? with
      | error e => simp [Request.type]
      | ok found => rfl

theorem Request.repeats_fresh (r : Request) : ∀ record ∈ r.fresh.2, record.Repeats := by
  cases r with
  | intents type => simp [fresh]
  | criteria i =>
      simp only [fresh]
      cases i.type.intents? with
      | error e => simp
      | ok found => exact repeats_compileFields i found

theorem Request.cache_serve (cache : IntentCache) (r : Request) :
    (r.serve cache).cache = (cache.read r.type).cache := by
  cases r with
  | intents type => rfl
  | criteria i =>
      simp only [serve, compile, Request.type]
      cases (cache.read i.type).result <;> rfl

def cacheAfter (requests : List Request) : IntentCache :=
  requests.foldl (fun cache r => (r.serve cache).cache) .empty

def ledgerAfter (requests : List Request) : Ledger :=
  Ledger.run [] 0 (requests.map Request.type)

theorem erase_ledgerAfter (requests : List Request) :
    (ledgerAfter requests).erase = cacheAfter requests := by
  rw [ledgerAfter, Ledger.erase_run, List.foldl_map]
  simp only [cacheAfter, Request.cache_serve]
  rfl

theorem getElem?_serveAll (r : Request) (later : List Request) :
    ∀ (earlier : List Request) (cache : IntentCache),
      (serveAll cache (earlier ++ r :: later))[earlier.length]? =
        some (r.serve (earlier.foldl (fun cache r => (r.serve cache).cache) cache)) := by
  intro earlier
  induction earlier with
  | nil => intro cache; rfl
  | cons first rest ih => intro cache; exact ih _

/-- How a request after others is served. -/
structure ServedAfresh (earlier : List Request) (r : Request) (served : Served) : Prop where
  reading : ((cacheAfter earlier).read r.type).result = r.type.intents?
  answer : served.answer = r.fresh.1
  log : served.log =
    (if asked (earlier.map Request.type) r.type then [] else r.type.extraction) ++ r.fresh.2
  noExtraction : ∀ record ∈ r.fresh.2, record.Repeats
  entries : served.cache.entries = (cacheAfter earlier).entries ++
    if asked (earlier.map Request.type) r.type then [] else r.type.entry
  others : ∀ key, r.type.key? ≠ some key →
    served.cache.entries.lookup key = (cacheAfter earlier).entries.lookup key
  failed : ∀ e, r.type.intents? = .error e → served.log = [] ∧ served.cache = cacheAfter earlier
  ledger : (ledgerAfter earlier).erase = cacheAfter earlier
  tuple : ((ledgerAfter earlier).read earlier.length r.type).1 =
    r.type.intents?.map (Made.mk · (firstCall (earlier.map Request.type) r.type))

theorem extraction_of_error {type : DescriptorType} {e : DescriptorError}
    (h : type.intents? = .error e) : type.extraction = [] ∧ type.entry = [] := by
  cases type with
  | declared d =>
      have hintents : d.intents? = .error e := h
      simp [DescriptorType.extraction, DescriptorType.entry, hintents]
  | foreign shown => exact ⟨rfl, rfl⟩
  | unhashable kind => exact ⟨rfl, rfl⟩

theorem Request.fresh_of_error {r : Request} {e : DescriptorError}
    (h : r.type.intents? = .error e) : r.fresh.2 = [] := by
  cases r with
  | intents type => rfl
  | criteria i =>
      have hintents : i.type.intents? = .error e := h
      simp only [fresh, hintents]

theorem servedAfresh {earlier : List Request} {r : Request} {among : List DescriptorType}
    (knows : Knows (ledgerAfter earlier) among (earlier.map Request.type))
    (hr : r.type ∈ among) : ServedAfresh earlier r (r.serve (cacheAfter earlier)) := by
  have reads := knows.readsAs hr
  rw [erase_ledgerAfter] at reads
  have tuple := knows.read hr
  rw [List.length_map] at tuple
  have hserve := r.serve_eq reads.result
  refine ⟨reads.result, ?_, ?_, r.repeats_fresh, ?_, ?_, ?_, erase_ledgerAfter earlier, tuple⟩
  · rw [hserve]
  · rw [hserve, ← reads.log]
  · rw [hserve]
    exact reads.entries
  · intro key hkey
    have others := Ledger.lookup_read_of_ne (ledgerAfter earlier) 0 hkey
    rw [r.cache_serve, ← erase_ledgerAfter, ((ledgerAfter earlier).erase_read 0 r.type).2,
      Ledger.lookup_erase, Ledger.lookup_erase, others]
  · intro e he
    obtain ⟨hextraction, hentry⟩ := extraction_of_error he
    have hlog := reads.log
    have hentries := reads.entries
    rw [hextraction, ite_self] at hlog
    rw [hentry, ite_self, List.append_nil] at hentries
    rw [hserve, hlog, Request.fresh_of_error he]
    exact ⟨rfl, congrArg IntentCache.mk hentries⟩

/-- In every sequence of requests each one is served afresh. -/
theorem requests_served_afresh {requests : List Request}
    (one : KeysTellTypes (requests.map Request.type)) :
    ∀ earlier r later, requests = earlier ++ r :: later →
      ∃ served, (serveAll .empty requests)[earlier.length]? = some served ∧
        ServedAfresh earlier r served := by
  rintro earlier r later rfl
  have hearlier : earlier.map Request.type ⊆ (earlier ++ r :: later).map Request.type :=
    List.map_subset _ (List.subset_append_left _ _)
  have hr : r.type ∈ (earlier ++ r :: later).map Request.type :=
    List.mem_map_of_mem (by simp)
  have knows := knows_run one (earlier.map Request.type) hearlier (knows_nil _)
  exact ⟨_, getElem?_serveAll r later earlier .empty, servedAfresh knows hr⟩

def titled : Declaration :=
  ⟨0, "Titled", [⟨"title", [.marker (.direct "name" .like)], none⟩], true⟩

def contradictory : Declaration :=
  ⟨1, "Contradictory", [⟨"price", [.marker (.range "price"), .marker (.direct "cost" .equal)], none⟩],
    true⟩

def mixedRequests : List Request :=
  [.intents (.declared contradictory), .intents (.declared titled), .intents (.foreign "int"),
    .criteria ⟨.declared titled, [("title", .int 3)]⟩, .criteria ⟨.declared contradictory, []⟩,
    .intents (.declared titled)]

theorem requests_served_afresh_mixed :
    KeysTellTypes (mixedRequests.map Request.type) ∧
      ∃ served, (serveAll .empty mixedRequests)[5]? = some served ∧
        ServedAfresh (mixedRequests.take 5) (.intents (.declared titled)) served := by
  have one : KeysTellTypes (mixedRequests.map Request.type) := by
    have either : ∀ d, .declared d ∈ mixedRequests.map Request.type →
        d = contradictory ∨ d = titled := by
      intro d hd
      simp only [mixedRequests, List.map_cons, List.map_nil, Request.type, List.mem_cons,
        DescriptorType.declared.injEq, reduceCtorEq, List.not_mem_nil, or_false, false_or] at hd
      tauto
    intro d d' hd hd' hkey
    rcases either d hd with rfl | rfl <;> rcases either d' hd' with rfl | rfl
    · rfl
    · exact absurd hkey (by decide)
    · exact absurd hkey (by decide)
    · rfl
  exact ⟨one, requests_served_afresh one (mixedRequests.take 5) _ [] rfl⟩

end CatalogSearch.Criteria
