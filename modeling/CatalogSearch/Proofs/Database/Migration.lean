import CatalogSearch.Database.Migration
import CatalogSearch.Proofs.Database.Sessions
import CatalogSearch.Proofs.Database.Transactions
import Mathlib.Data.String.Basic

/-!
# Migrations as a whole

Main statement: `migrations_all_or_nothing`.  The session statements of a run open a transaction, so
that the transaction of a script is only a savepoint, and nothing counts before the connection ends.
A run therefore applies every script that is not recorded and records it, or it leaves the database
as it was.  That happens only if a call was interrupted, a script failed, or what the run was given
cannot be used.

The runs are those on one database and with one schema, but their directories may differ.  Scripts
may do what they like to the contents; what the ledger says is told for those that spare it.
-/

set_option autoImplicit false

namespace CatalogSearch.Database

open Config Store

variable {τ ε : Type}

/-! ## Scripts in order -/

/-- The scripts of a directory; there are none if it cannot be used. -/
def scriptsOf (directory : Option (List DirectoryEntry)) : List Script :=
  match scriptsIn directory with
  | .ok scripts => scripts
  | .error _ => []

theorem scriptsOf_some (entries : List DirectoryEntry) :
    scriptsOf (some entries) =
      (entries.filterMap DirectoryEntry.script?).mergeSort fun a b => a.name ≤ b.name := by
  unfold scriptsOf scriptsIn
  dsimp only
  generalize (entries.filterMap DirectoryEntry.script?).mergeSort _ = scripts
  cases scripts <;> rfl

def HoldsScript (directory : Option (List DirectoryEntry)) (script : Script) : Prop :=
  ∃ entries, directory = some entries ∧ ∃ e ∈ entries, e.script? = some script

theorem mem_scriptsOf {directory : Option (List DirectoryEntry)} {script : Script} :
    script ∈ scriptsOf directory ↔ HoldsScript directory script := by
  unfold HoldsScript
  cases directory with
  | none => simp [scriptsOf, scriptsIn]
  | some entries => simp [scriptsOf_some]

theorem scriptsOf_pairwise (directory : Option (List DirectoryEntry)) :
    (scriptsOf directory).Pairwise fun a b => a.name ≤ b.name := by
  cases directory with
  | none => exact .nil
  | some entries =>
      rw [scriptsOf_some]
      refine (List.pairwise_mergeSort ?_ ?_ _).imp of_decide_eq_true
      · intro a b c
        simpa using le_trans
      · intro a b
        simpa using le_total a.name b.name

/-! ## What scripts leave -/

/-- The scripts that are not recorded under a name yet. -/
def unrecorded (names : List String) (scripts : List Script) : List Script :=
  scripts.filter fun script => !names.contains script.name

theorem mem_unrecorded {names : List String} {scripts : List Script} {script : Script} :
    script ∈ unrecorded names scripts ↔ script ∈ scripts ∧ script.name ∉ names := by
  simp [unrecorded]

theorem unrecorded_cons_of_recorded {names : List String} {script : Script}
    (known : names.contains script.name = true) (rest : List Script) :
    unrecorded names (script :: rest) = unrecorded names rest := by
  refine List.filter_cons_of_neg ?_
  rw [known]
  exact Bool.false_ne_true

theorem unrecorded_cons_of_new {names : List String} {script : Script}
    (new : ¬ names.contains script.name = true) (rest : List Script) :
    unrecorded names (script :: rest) = script :: unrecorded names rest := by
  refine List.filter_cons_of_pos ?_
  rw [Bool.eq_false_of_not_eq_true new]
  rfl

def Dialect.applyAll (d : Dialect τ ε) : List Script → Contents τ → Except ε (Contents τ)
  | [], c => .ok c
  | script :: rest, c => do
      let applied ← d.perform c (.script script.text)
      let recorded ← d.perform applied.2 (.insertApplied script.name)
      d.applyAll rest recorded.2

section Applying

variable {d : Dialect τ ε} {c c' : Contents τ} {rows names : List String}

theorem perform_script_ledger {text : String} (spares : d.SparesLedger text)
    (h : d.perform c (.script text) = .ok (rows, c')) : c'.ledger = c.ledger := by
  obtain ⟨changed, performed, h⟩ := except_map_eq_ok.mp h
  obtain ⟨_, rfl⟩ := Prod.mk.inj h
  exact spares c changed performed

theorem perform_insert_ledger {name : String} (ledger : c.ledger = some names)
    (h : d.perform c (.insertApplied name) = .ok (rows, c')) :
    name ∉ names ∧ c'.ledger = some (names ++ [name]) := by
  simp only [Dialect.perform, ledger] at h
  split at h
  · cases h
  · next absent =>
      obtain ⟨_, rfl⟩ := Prod.mk.inj (Except.ok.inj h)
      exact ⟨absent, rfl⟩

theorem applyAll_cons_eq_ok {script : Script} {rest : List Script} :
    d.applyAll (script :: rest) c = .ok c' ↔ ∃ applied recorded,
      d.perform c (.script script.text) = .ok applied ∧
        d.perform applied.2 (.insertApplied script.name) = .ok recorded ∧
          d.applyAll rest recorded.2 = .ok c' := by
  simp only [Dialect.applyAll, except_bind_eq_ok]
  constructor
  · intro ⟨applied, happlied, recorded, hrecorded, h⟩
    exact ⟨applied, recorded, happlied, hrecorded, h⟩
  · intro ⟨applied, recorded, happlied, hrecorded, h⟩
    exact ⟨applied, happlied, recorded, hrecorded, h⟩

theorem applyAll_append (d : Dialect τ ε) (xs ys : List Script) (c : Contents τ) :
    d.applyAll (xs ++ ys) c = d.applyAll xs c >>= d.applyAll ys := by
  induction xs generalizing c with
  | nil => rfl
  | cons script rest ih => simp only [List.cons_append, Dialect.applyAll, ih, bind_assoc]

theorem applyAll_append_of_ok {xs : List Script} (first : d.applyAll xs c = .ok c')
    (ys : List Script) : d.applyAll (xs ++ ys) c = d.applyAll ys c' := by
  rw [applyAll_append, first]
  rfl

theorem applyAll_append_of_error {xs : List Script} {e : ε} (first : d.applyAll xs c = .error e)
    (ys : List Script) : d.applyAll (xs ++ ys) c = .error e := by
  rw [applyAll_append, first]
  rfl

/-- The ledger grows by the names, which are distinct and were not in it before. -/
theorem applyAll_ledger {scripts : List Script} (h : d.applyAll scripts c = .ok c')
    (spares : ∀ script ∈ scripts, d.SparesLedger script.text) (ledger : c.ledger = some names) :
    c'.ledger = some (names ++ scripts.map Script.name) ∧ (scripts.map Script.name).Nodup ∧
      ∀ script ∈ scripts, script.name ∉ names := by
  induction scripts generalizing c names with
  | nil =>
      obtain rfl := Except.ok.inj h
      refine ⟨?_, List.nodup_nil, ?_⟩
      · rw [ledger, List.map_nil, List.append_nil]
      · intro script hscript
        cases hscript
  | cons script rest ih =>
      obtain ⟨applied, recorded, happlied, hrecorded, h⟩ := applyAll_cons_eq_ok.mp h
      obtain ⟨spared, others⟩ := List.forall_mem_cons.mp spares
      have kept := (perform_script_ledger spared happlied).trans ledger
      obtain ⟨absent, grown⟩ := perform_insert_ledger kept hrecorded
      obtain ⟨final, distinct, fresh⟩ := ih h others grown
      refine ⟨?_, ?_, ?_⟩
      · rw [final, List.map_cons, List.append_assoc, List.singleton_append]
      · refine List.nodup_cons.mpr ⟨?_, distinct⟩
        intro again
        obtain ⟨other, hother, same⟩ := List.mem_map.mp again
        apply fresh other hother
        rw [same]
        exact List.mem_append_right names List.mem_cons_self
      · intro other hother
        rcases List.mem_cons.mp hother with rfl | hother
        · exact absent
        · intro old
          exact fresh other hother (List.mem_append_left _ old)

end Applying

/-! ## Runs as calls -/

section Ended

variable {σ : Type}

def MigrationRun.ended (run : MigrationRun σ ε) : Except ε Unit × σ := (run.result, run.state)

theorem ended_applyScripts_cons (d : Client σ ε) {names : List String} {script : Script}
    (new : ¬ names.contains script.name = true) (rest : List Script) (s : σ) :
    (applyScripts d names (script :: rest) s).ended =
      Call.bind (applyScript d script) (fun _ s => (applyScripts d names rest s).ended) s := by
  unfold Call.bind
  rw [applyScripts, if_neg new]
  rcases applyScript d script s with ⟨e | u, s'⟩ <;> rfl

theorem ended_migrateConnected (d : Client σ ε) (recreate : Bool) (scripts : List Script) (s : σ) :
    (migrateConnected d recreate scripts s).ended =
      Call.bind (prepareLedger d recreate)
        (fun names s => (applyScripts d names scripts s).ended) s := by
  unfold migrateConnected Call.bind
  rcases prepareLedger d recreate s with ⟨e | names, s'⟩ <;> rfl

theorem ended_migrate (d : Client σ ε) (url : String) (schema : Option SchemaChoice)
    (recreate : Bool) (scripts : List Script) (s : σ) :
    (migrate d url schema recreate scripts s).ended =
      Call.bind (d.connectSession url ⟨none, schema⟩)
        (fun _ => Call.mapError .database
          fun s => (concluded d (migrateConnected d recreate scripts s)).ended) s := by
  unfold migrate Call.bind Call.mapError
  rcases d.connectSession url ⟨none, schema⟩ s with ⟨e | u, s'⟩
  · rfl
  · dsimp only
    rcases concluded d (migrateConnected d recreate scripts s') with ⟨e | u, s'', newly⟩ <;> rfl

def CommandRun.ended (run : CommandRun σ ε) : Except (MigrationError ε) Unit × σ :=
  (run.result, run.state)

theorem ended_migrateIn (d : Client σ ε) {env : Environment}
    {directory : Option (List DirectoryEntry)} {setup : MigrationSetup}
    (prepared : (prepareMigration env directory : Except (MigrationError ε) MigrationSetup) =
      .ok setup)
    (schema : Option SchemaChoice) (recreate : Bool) (s : σ) :
    (migrateIn d env directory schema recreate s).ended =
      Call.mapError .connection
        (fun s => (migrate d setup.url schema recreate setup.scripts s).ended) s := by
  unfold migrateIn Call.mapError
  rw [prepared]
  dsimp only
  rcases migrate d setup.url schema recreate setup.scripts s with ⟨e | u, s', newly⟩ <;> rfl

end Ended

/-! ## One run -/

section Run

variable {d : Dialect τ ε} {interrupts : Nat → Option ε} {base c : Contents τ}
  {before texts all : List String} {s : Store τ}

/-- A session changes nothing, though its first statement opens the transaction. -/
theorem configure_ends {Cause : ConnectError ε → Nat → Prop}
    (covers : Covers interrupts fun e => Cause (.database e)) (statements : List SessionStatement)
    (writable : ∀ statement ∈ statements, statement.isWritable = true) (first : texts <+: all)
    (h : s.Sees base (before ++ texts) c []) :
    Ends (fun _ => Sees base (before ++ texts) c []) (Fails base before all Cause)
      ((d.client interrupts).configure statements s) := by
  induction statements generalizing s with
  | nil => exact h
  | cons statement rest ih =>
      have written : statement.written = .ok statement.text :=
        if_pos (writable statement List.mem_cons_self)
      have accepted : ∀ e clock, d.perform c (.session statement) = .error e →
          Cause (.database e) clock := by
        intro e clock refused
        cases refused
      unfold Client.configure
      rw [written]
      refine Ends.bind
        (Ends.mapError_of (h.execute covers accepted (List.append_nil texts) first)) ?_
      intro _ s' answered
      obtain ⟨c', performed, h'⟩ := answered
      obtain ⟨_, rfl⟩ := Prod.mk.inj (Except.ok.inj performed)
      exact ih (fun other hother => writable other (List.mem_cons_of_mem statement hother)) h'.sees

theorem connectSession_ends {Cause : ConnectError ε → Nat → Prop}
    (covers : Covers interrupts fun e => Cause (.database e)) (url : String)
    (schema : Option SchemaChoice)
    (refusals : ∀ e clock, schemaStatements schema = .error e → Cause (.session e) clock)
    (first : texts <+: all) (h : s.Settled base (before ++ texts)) :
    Ends (fun _ => Sees base (before ++ texts) base []) (Fails base before all Cause)
      ((d.client interrupts).connectSession url ⟨none, schema⟩ s) := by
  refine Ends.bind (Ends.mapError_of (h.connect covers first url)) ?_
  intro _ s' h'
  unfold sessionStatements
  cases made : schemaStatements schema with
  | error e => exact ⟨h'.undone first, refusals e s'.clock made⟩
  | ok schemas =>
      refine configure_ends covers _ ?_ first h'
      intro statement hstatement
      rcases List.mem_cons.mp hstatement with rfl | hstatement
      · rfl
      · exact isWritable_of_mem_schemaStatements made hstatement

theorem prepareLedger_ends {Cause : ε → Nat → Prop} (covers : Covers interrupts Cause)
    (first : texts <+: all) (h : s.Sees base (before ++ texts) c []) :
    Ends (fun names s' => names = c.recorded ∧ s'.Within base (before ++ texts) c.prepared [])
      (Fails base before all Cause) (prepareLedger (d.client interrupts) false s) := by
  change Ends _ _ (Call.bind ((d.client interrupts).execute .createLedger)
    (fun _ => (d.client interrupts).execute .selectApplied) s)
  have made : ∀ e clock, d.perform c .createLedger = .error e → Cause e clock := by
    intro e clock refused
    cases refused
  refine Ends.bind (h.execute covers made (List.append_nil texts) first) ?_
  intro _ s₁ ⟨c₁, created, h₁⟩
  obtain ⟨_, rfl⟩ := Prod.mk.inj (Except.ok.inj created)
  have answered : ∀ e clock, d.perform c.prepared .selectApplied = .error e → Cause e clock := by
    intro e clock refused
    cases refused
  refine Ends.imp (h₁.sees.execute covers answered (List.append_nil texts) first) ?_ fun _ _ => id
  intro names s₂ ⟨c₂, selected, h₂⟩
  obtain ⟨rfl, rfl⟩ := Prod.mk.inj (Except.ok.inj selected)
  exact ⟨rfl, h₂⟩

variable {Cause : ε → Nat → Prop}

theorem applyScript_ends {script : Script} (covers : Covers interrupts Cause)
    (refusals : ∀ e clock, d.applyAll [script] c = .error e → Cause e clock)
    (first : texts ++ [script.text] <+: all) (h : s.Within base (before ++ texts) c []) :
    Ends (fun _ s' => ∃ c', d.applyAll [script] c = .ok c' ∧
        s'.Within base (before ++ (texts ++ [script.text])) c' [])
      (Fails base before all Cause) (applyScript (d.client interrupts) script s) := by
  refine h.transaction_ends covers ((List.prefix_append _ _).trans first) first ?_
  intro s₁ h₁
  have refused : ∀ e clock, d.perform c (.script script.text) = .error e → Cause e clock := by
    intro e clock failed
    apply refusals e clock
    rw [Dialect.applyAll, failed]
    rfl
  refine Ends.bind (h₁.sees.execute covers refused rfl first) ?_
  intro _ s₂ ⟨c₂, applied, h₂⟩
  have unrecorded : ∀ e clock, d.perform c₂ (.insertApplied script.name) = .error e →
      Cause e clock := by
    intro e clock failed
    apply refusals e clock
    rw [Dialect.applyAll, applied]
    exact congrArg (· >>= fun recorded => d.applyAll [] recorded.2) failed
  refine Ends.bind (h₂.sees.execute covers unrecorded (List.append_nil _) first) ?_
  intro _ s₃ ⟨c₃, recorded, h₃⟩
  exact ⟨c₃, applyAll_cons_eq_ok.mpr ⟨_, _, applied, recorded, rfl⟩, h₃⟩

theorem applyScripts_ends (covers : Covers interrupts Cause) (names : List String)
    (scripts : List Script)
    (refusals : ∀ e clock, d.applyAll (unrecorded names scripts) c = .error e → Cause e clock)
    (first : texts ++ (unrecorded names scripts).map Script.text <+: all)
    (h : s.Within base (before ++ texts) c []) :
    Ends (fun _ s' => ∃ c', d.applyAll (unrecorded names scripts) c = .ok c' ∧
        s'.Within base (before ++ (texts ++ (unrecorded names scripts).map Script.text)) c' [])
      (Fails base before all Cause)
      (applyScripts (d.client interrupts) names scripts s).ended := by
  induction scripts generalizing s c texts with
  | nil => exact ⟨c, rfl, (List.append_nil texts).symm ▸ h⟩
  | cons script rest ih =>
      by_cases known : names.contains script.name = true
      · rw [unrecorded_cons_of_recorded known] at refusals first ⊢
        rw [applyScripts, if_pos known]
        exact ih refusals first h
      · have split : texts ++ (script :: unrecorded names rest).map Script.text =
            texts ++ [script.text] ++ (unrecorded names rest).map Script.text := by
          simp only [List.map_cons, List.append_assoc, List.singleton_append]
        rw [unrecorded_cons_of_new known] at refusals
        rw [unrecorded_cons_of_new known, split] at first
        rw [unrecorded_cons_of_new known, split, ended_applyScripts_cons _ known]
        -- Whatever refuses this script refuses the whole list.
        have refused : ∀ e clock, d.applyAll [script] c = .error e → Cause e clock := by
          intro e clock failed
          exact refusals e clock (applyAll_append_of_error failed (unrecorded names rest))
        refine Ends.bind
          (applyScript_ends covers refused ((List.prefix_append _ _).trans first) h) ?_
        intro _ s' ⟨c', applied, h'⟩
        have others := applyAll_append_of_ok applied (unrecorded names rest)
        refine Ends.imp (ih ?_ first h') ?_ fun _ _ => id
        · intro e clock failed
          exact refusals e clock (others.trans failed)
        · intro _ s'' ⟨c'', rested, h''⟩
          exact ⟨c'', others.trans rested, h''⟩

theorem migrateConnected_ends (covers : Covers interrupts Cause) (scripts : List Script)
    (refusals : ∀ e clock, d.applyAll (unrecorded c.recorded scripts) c.prepared = .error e →
      Cause e clock)
    (first : texts ++ (unrecorded c.recorded scripts).map Script.text <+: all)
    (h : s.Sees base (before ++ texts) c []) :
    Ends (fun _ s' => ∃ c', d.applyAll (unrecorded c.recorded scripts) c.prepared = .ok c' ∧
        s'.Within base
          (before ++ (texts ++ (unrecorded c.recorded scripts).map Script.text)) c' [])
      (Fails base before all Cause)
      (migrateConnected (d.client interrupts) false scripts s).ended := by
  rw [ended_migrateConnected]
  refine Ends.bind (prepareLedger_ends covers ((List.prefix_append _ _).trans first) h) ?_
  intro names s' ⟨hnames, h'⟩
  subst hnames
  exact applyScripts_ends covers c.recorded scripts refusals first h'

theorem concluded_ends {run : MigrationRun (Store τ) ε} {Changes : Contents τ → Prop}
    (covers : Covers interrupts Cause) (first : texts <+: all)
    (h : Ends (fun _ s' => ∃ c', Changes c' ∧ s'.Within base (before ++ texts) c' [])
      (Fails base before all Cause) run.ended) :
    Ends (fun _ s' => ∃ c', Changes c' ∧ s'.Settled c' (before ++ texts))
      (Fails base before all Cause) (concluded (d.client interrupts) run).ended := by
  rcases run with ⟨e | u, s, newly⟩
  · obtain ⟨undone, cause⟩ := h
    exact ⟨undone.of_eq rfl rfl, cause⟩
  · obtain ⟨c', changes, h'⟩ := h
    have finished : Ends _ _ ((d.client interrupts).finish s) := h'.finish covers first
    refine Ends.imp finished ?_ fun _ _ => id
    intro _ s' settled
    exact ⟨c', changes, settled⟩

theorem migrate_ends {Cause : ConnectError ε → Nat → Prop}
    (covers : Covers interrupts fun e => Cause (.database e)) (url : String)
    (schema : Option SchemaChoice) (scripts : List Script)
    (refusals : ∀ e clock, schemaStatements schema = .error e → Cause (.session e) clock)
    (failures : ∀ e clock, d.applyAll (unrecorded c.recorded scripts) c.prepared = .error e →
      Cause (.database e) clock)
    (h : s.Settled c (before ++ [])) :
    Ends (fun _ s' => ∃ c', d.applyAll (unrecorded c.recorded scripts) c.prepared = .ok c' ∧
        s'.Settled c' (before ++ (unrecorded c.recorded scripts).map Script.text))
      (Fails c before ((unrecorded c.recorded scripts).map Script.text) Cause)
      (migrate (d.client interrupts) url schema false scripts s).ended := by
  rw [ended_migrate]
  refine Ends.bind (connectSession_ends covers url schema refusals List.nil_prefix h) ?_
  intro _ s' h'
  refine Ends.mapError_of (concluded_ends covers (List.prefix_refl _) ?_)
  exact migrateConnected_ends covers scripts failures (List.prefix_refl _) h'

end Run

/-! ## Sequences of runs -/

/-- A database, how runs find it, and which of their calls are interrupted. -/
structure Target (τ ε : Type) where
  dialect : Dialect τ ε
  interrupts : Nat → Option ε
  env : Environment
  schema : Option SchemaChoice

namespace Target

def run (t : Target τ ε) (directory : Option (List DirectoryEntry)) (s : Store τ) :
    CommandRun (Store τ) ε :=
  migrateIn (t.dialect.client t.interrupts) t.env directory t.schema false s

def runs (t : Target τ ε) (directories : List (Option (List DirectoryEntry))) (s : Store τ) :
    Store τ :=
  directories.foldl (fun s directory => (t.run directory s).state) s

end Target

def Dialect.SparesLedgerIn (d : Dialect τ ε) (directory : Option (List DirectoryEntry)) : Prop :=
  ∀ script, HoldsScript directory script → d.SparesLedger script.text

def pending (directory : Option (List DirectoryEntry)) (s : Store τ) : List Script :=
  unrecorded s.committed.recorded (scriptsOf directory)

theorem mem_pending {directory : Option (List DirectoryEntry)} {s : Store τ} {script : Script} :
    script ∈ pending directory s ↔
      HoldsScript directory script ∧ script.name ∉ s.committed.recorded := by
  rw [pending, mem_unrecorded, mem_scriptsOf]

/-- The pending scripts were sent and no others, in the order of the names, and each was applied and
then recorded. -/
structure Migrated (d : Dialect τ ε) (directory : Option (List DirectoryEntry))
    (s s' : Store τ) : Prop where
  missing : ∀ script, script ∈ pending directory s ↔
    HoldsScript directory script ∧ script.name ∉ s.committed.recorded
  applied : d.applyAll (pending directory s) s.committed.prepared = .ok s'.committed
  executed : s'.executed = s.executed ++ (pending directory s).map Script.text
  ordered : (pending directory s).Pairwise fun a b => a.name ≤ b.name

/-- What the ledger says after a run whose scripts leave it alone. -/
structure Recorded (directory : Option (List DirectoryEntry)) (s s' : Store τ) : Prop where
  ledger : s'.committed.ledger =
    some (s.committed.recorded ++ (pending directory s).map Script.name)
  ascending : (pending directory s).Pairwise fun a b => a.name < b.name
  recorded : ∀ name, name ∈ s'.committed.recorded ↔
    name ∈ s.committed.recorded ∨ ∃ script, HoldsScript directory script ∧ script.name = name

/-- Why a run fails, and after how many calls if it was interrupted. -/
inductive RunFails (t : Target τ ε) (directory : Option (List DirectoryEntry)) (s : Store τ) :
    MigrationError ε → Nat → Prop where
  | setup {e : MigrationError ε} {clock : Nat} :
      prepareMigration t.env directory = .error e → RunFails t directory s e clock
  | session {e : SessionError} {clock : Nat} :
      schemaStatements t.schema = .error e →
      RunFails t directory s (.connection (.session e)) clock
  | interrupted {e : ε} {n : Nat} : t.interrupts n = some e →
      RunFails t directory s (.connection (.database e)) (n + 1)
  | scripts {e : ε} {clock : Nat} :
      t.dialect.applyAll (pending directory s) s.committed.prepared = .error e →
      RunFails t directory s (.connection (.database e)) clock

inductive RunOutcome (t : Target τ ε) (directory : Option (List DirectoryEntry))
    (s : Store τ) : Prop where
  /-- If the scripts spare the ledger, the same run right after it sends no script. -/
  | migrated : (t.run directory s).result = .ok () →
      Migrated t.dialect directory s (t.run directory s).state →
      (t.dialect.SparesLedgerIn directory → Recorded directory s (t.run directory s).state ∧
        (t.run directory (t.run directory s).state).state.executed =
          (t.run directory s).state.executed) →
      RunOutcome t directory s
  /-- The scripts that were sent are some first ones of those that were pending. -/
  | failed {e : MigrationError ε} {texts : List String} :
      (t.run directory s).result = .error e →
      RunFails t directory s e (t.run directory s).state.clock →
      (t.run directory s).state.committed = s.committed →
      texts <+: (pending directory s).map Script.text →
      (t.run directory s).state.executed = s.executed ++ texts →
      RunOutcome t directory s

/-- What was done since `s` is to have applied and recorded these scripts, each of them once. -/
structure AppliedOnce (d : Dialect τ ε) (directories : List (Option (List DirectoryEntry)))
    (scripts : List Script) (s s' : Store τ) : Prop where
  origin : ∀ script ∈ scripts, ∃ directory ∈ directories, HoldsScript directory script
  applied : d.applyAll scripts s.committed.prepared = .ok s'.committed.prepared
  recorded : s'.committed.recorded = s.committed.recorded ++ scripts.map Script.name
  distinct : (scripts.map Script.name).Nodup
  fresh : ∀ script ∈ scripts, script.name ∉ s.committed.recorded

theorem scriptsOf_of_prepared {env : Environment} {directory : Option (List DirectoryEntry)}
    {setup : MigrationSetup}
    (prepared : (prepareMigration env directory : Except (MigrationError ε) MigrationSetup) =
      .ok setup) :
    scriptsOf directory = setup.scripts := by
  simp only [prepareMigration, except_bind_eq_ok] at prepared
  obtain ⟨url, _, scripts, found, made⟩ := prepared
  obtain rfl := Except.ok.inj made
  unfold scriptsOf
  cases listed : scriptsIn directory with
  | error e =>
      rw [listed] at found
      cases found
  | ok scripts' =>
      rw [listed] at found
      exact Except.ok.inj found

theorem run_ends (t : Target τ ε) (directory : Option (List DirectoryEntry)) (s : Store τ) :
    Ends
      (fun _ s' => ∃ c',
        t.dialect.applyAll (pending directory s) s.committed.prepared = .ok c' ∧
          s'.Settled c' (s.executed ++ (pending directory s).map Script.text))
      (Fails s.committed s.executed ((pending directory s).map Script.text)
        (RunFails t directory s))
      (t.run directory s).ended := by
  have settled : s.Settled s.committed (s.executed ++ []) := ⟨rfl, (List.append_nil _).symm⟩
  have run : (t.run directory s).ended =
    (migrateIn (t.dialect.client t.interrupts) t.env directory t.schema false s).ended := rfl
  rw [run]
  cases prepared : prepareMigration t.env directory with
  | error e =>
      unfold migrateIn
      rw [prepared]
      exact ⟨⟨rfl, [], List.nil_prefix, settled.executed⟩, .setup prepared⟩
  | ok setup =>
      have scripts : pending directory s = unrecorded s.committed.recorded setup.scripts := by
        rw [pending, scriptsOf_of_prepared prepared]
      have failures : ∀ e clock,
          t.dialect.applyAll (unrecorded s.committed.recorded setup.scripts)
              s.committed.prepared = .error e →
            RunFails t directory s (.connection (.database e)) clock := by
        intro e clock failed
        exact .scripts (scripts ▸ failed)
      rw [ended_migrateIn _ prepared, scripts]
      refine Ends.mapError_of (migrate_ends ?_ setup.url t.schema setup.scripts ?_ failures settled)
      · exact fun n e met => .interrupted met
      · exact fun e clock refused => .session refused

theorem pending_ordered (directory : Option (List DirectoryEntry)) (s : Store τ) :
    (pending directory s).Pairwise fun a b => a.name ≤ b.name :=
  (scriptsOf_pairwise directory).sublist List.filter_sublist

theorem Migrated.recorded {d : Dialect τ ε} {directory : Option (List DirectoryEntry)}
    {s s' : Store τ} (h : Migrated d directory s s') (spares : d.SparesLedgerIn directory) :
    Recorded directory s s' := by
  have spared : ∀ script ∈ pending directory s, d.SparesLedger script.text :=
    fun script hscript => spares script (mem_pending.mp hscript).1
  obtain ⟨ledger, distinct, _⟩ := applyAll_ledger h.applied spared rfl
  refine ⟨ledger, ?_, ?_⟩
  · refine (h.ordered.and (List.pairwise_map.mp distinct)).imp ?_
    intro a b h
    exact lt_of_le_of_ne h.1 h.2
  · intro name
    rw [Contents.recorded, ledger, Option.getD_some, List.mem_append, List.mem_map]
    constructor
    · intro h
      rcases h with old | ⟨script, hscript, rfl⟩
      · exact .inl old
      · exact .inr ⟨script, (mem_pending.mp hscript).1, rfl⟩
    · intro h
      rcases h with old | ⟨script, hscript, rfl⟩
      · exact .inl old
      · by_cases old : script.name ∈ s.committed.recorded
        · exact .inl old
        · exact .inr ⟨script, mem_pending.mpr ⟨hscript, old⟩, rfl⟩

theorem executed_of_pending_nil {t : Target τ ε} {directory : Option (List DirectoryEntry)}
    {s : Store τ} (settled : pending directory s = []) :
    (t.run directory s).state.executed = s.executed := by
  have ends := run_ends t directory s
  rw [settled] at ends
  revert ends
  rcases t.run directory s with ⟨e | u, s', log⟩
  · intro ⟨undone, _⟩
    obtain ⟨texts, first, executed⟩ := undone.executed
    rw [List.prefix_nil.mp first, List.append_nil] at executed
    exact executed
  · intro ⟨c', _, settled⟩
    exact settled.executed.trans (List.append_nil _)

theorem Recorded.pending_nil {directory : Option (List DirectoryEntry)} {s s' : Store τ}
    (h : Recorded directory s s') : pending directory s' = [] := by
  refine List.eq_nil_iff_forall_not_mem.mpr ?_
  intro script hscript
  obtain ⟨held, new⟩ := mem_pending.mp hscript
  exact new ((h.recorded script.name).mpr (.inr ⟨script, held, rfl⟩))

theorem run_outcome (t : Target τ ε) (directory : Option (List DirectoryEntry)) (s : Store τ) :
    RunOutcome t directory s := by
  have ends := run_ends t directory s
  unfold CommandRun.ended at ends
  cases result : (t.run directory s).result with
  | error e =>
      rw [result] at ends
      obtain ⟨undone, cause⟩ := ends
      obtain ⟨texts, first, executed⟩ := undone.executed
      exact .failed result cause undone.committed first executed
  | ok u =>
      rw [result] at ends
      obtain ⟨c', applied, rfl, executed⟩ := ends
      have migrated : Migrated t.dialect directory s (t.run directory s).state :=
        ⟨fun _ => mem_pending, applied, executed, pending_ordered directory s⟩
      refine .migrated result migrated ?_
      intro spares
      have recorded := migrated.recorded spares
      exact ⟨recorded, executed_of_pending_nil recorded.pending_nil⟩

theorem RunOutcome.step {t : Target τ ε} {directory : Option (List DirectoryEntry)} {s : Store τ}
    (h : RunOutcome t directory s) (spares : t.dialect.SparesLedgerIn directory) : ∃ scripts,
      (∀ script ∈ scripts, HoldsScript directory script) ∧
        t.dialect.applyAll scripts s.committed.prepared =
          .ok (t.run directory s).state.committed.prepared := by
  cases h with
  | migrated _ migrated recorded =>
      refine ⟨pending directory s, fun script hscript => (mem_pending.mp hscript).1, ?_⟩
      rw [migrated.applied, Contents.prepared_of_ledger (recorded spares).1.ledger]
  | failed _ _ committed _ _ =>
      refine ⟨[], fun _ hscript => absurd hscript List.not_mem_nil, ?_⟩
      rw [committed]
      rfl

theorem runs_applied (t : Target τ ε) (directories : List (Option (List DirectoryEntry)))
    (spares : ∀ directory ∈ directories, t.dialect.SparesLedgerIn directory) (s : Store τ) :
    ∃ scripts,
      (∀ script ∈ scripts, ∃ directory ∈ directories, HoldsScript directory script) ∧
        t.dialect.applyAll scripts s.committed.prepared =
          .ok (t.runs directories s).committed.prepared := by
  induction directories generalizing s with
  | nil => exact ⟨[], fun _ hscript => absurd hscript List.not_mem_nil, rfl⟩
  | cons directory rest ih =>
      obtain ⟨spared, spares⟩ := List.forall_mem_cons.mp spares
      obtain ⟨first, horigin, hfirst⟩ := (run_outcome t directory s).step spared
      obtain ⟨others, horigins, hothers⟩ := ih spares (t.run directory s).state
      refine ⟨first ++ others, ?_, (applyAll_append_of_ok hfirst others).trans hothers⟩
      intro script hscript
      rcases List.mem_append.mp hscript with hscript | hscript
      · exact ⟨directory, List.mem_cons_self, horigin script hscript⟩
      · obtain ⟨directory', hmem, held⟩ := horigins script hscript
        exact ⟨directory', List.mem_cons_of_mem directory hmem, held⟩

/-- Of any runs on a database, each succeeds as a whole or leaves the database as it was, and in all
no script is applied twice, or recorded without being applied, if they spare the ledger. -/
theorem migrations_all_or_nothing (t : Target τ ε)
    (directories : List (Option (List DirectoryEntry))) (s : Store τ) :
    (∀ directory, RunOutcome t directory (t.runs directories s)) ∧
      ((∀ directory ∈ directories, t.dialect.SparesLedgerIn directory) →
        ∃ scripts, AppliedOnce t.dialect directories scripts s (t.runs directories s)) := by
  refine ⟨fun directory => run_outcome t directory (t.runs directories s), ?_⟩
  intro spares
  obtain ⟨scripts, origin, applied⟩ := runs_applied t directories spares s
  have spared : ∀ script ∈ scripts, t.dialect.SparesLedger script.text := by
    intro script hscript
    obtain ⟨directory, hdirectory, held⟩ := origin script hscript
    exact spares directory hdirectory script held
  obtain ⟨ledger, distinct, fresh⟩ := applyAll_ledger applied spared rfl
  exact ⟨scripts, origin, applied, Option.some.inj ledger, distinct, fresh⟩

def keepingTexts : Dialect (List String) String :=
  ⟨fun text c => .ok { c with tables := c.tables ++ [text] }, fun _ c => .ok c.tables, "none",
    "twice", "aborted"⟩

/-- Its tenth call, with the second script of the first run, is interrupted. -/
def tenthInterrupted : Target (List String) String :=
  ⟨keepingTexts, fun n => if n = 9 then some "interrupted" else none,
    ⟨[("DATABASE_URL", "postgresql://localhost/catalog")]⟩, none⟩

def twoScripts : Option (List DirectoryEntry) :=
  some [⟨"a.sql", some "A"⟩, ⟨"notes", some ""⟩, ⟨"b.sql", some "B"⟩]

theorem scriptsIn_twoScripts :
    scriptsIn twoScripts = .ok [⟨"a.sql", "A"⟩, ⟨"b.sql", "B"⟩] := by
  have read : [(⟨"a.sql", some "A"⟩ : DirectoryEntry), ⟨"notes", some ""⟩,
      ⟨"b.sql", some "B"⟩].filterMap DirectoryEntry.script? =
        [⟨"a.sql", "A"⟩, ⟨"b.sql", "B"⟩] := by
    decide
  have inOrder : [(⟨"a.sql", "A"⟩ : Script), ⟨"b.sql", "B"⟩].Pairwise
      fun a b => decide (a.name ≤ b.name) = true := by
    decide
  simp only [scriptsIn, twoScripts, read, List.mergeSort_of_pairwise inOrder]

theorem prepareMigration_twoScripts :
    (prepareMigration tenthInterrupted.env twoScripts :
      Except (MigrationError String) MigrationSetup) =
      .ok ⟨"postgresql://localhost/catalog", [⟨"a.sql", "A"⟩, ⟨"b.sql", "B"⟩]⟩ := by
  rw [prepareMigration, scriptsIn_twoScripts]
  rfl

theorem migrations_all_or_nothing_interrupted :
    (∀ directory ∈ [twoScripts, twoScripts, twoScripts],
      keepingTexts.SparesLedgerIn directory) ∧
    (∃ scripts, AppliedOnce keepingTexts [twoScripts, twoScripts, twoScripts] scripts
      ⟨⟨none, []⟩, none, [], 0⟩
      (tenthInterrupted.runs [twoScripts, twoScripts, twoScripts] ⟨⟨none, []⟩, none, [], 0⟩)) ∧
    (tenthInterrupted.runs [twoScripts] ⟨⟨none, []⟩, none, [], 0⟩).committed = ⟨none, []⟩ ∧
    (tenthInterrupted.runs [twoScripts, twoScripts, twoScripts]
      ⟨⟨none, []⟩, none, [], 0⟩).committed = ⟨some ["a.sql", "b.sql"], ["A", "B"]⟩ ∧
    (tenthInterrupted.runs [twoScripts, twoScripts, twoScripts]
      ⟨⟨none, []⟩, none, [], 0⟩).executed = ["A", "B", "A", "B"] := by
  have spares (directory : Option (List DirectoryEntry)) :
      keepingTexts.SparesLedgerIn directory := by
    intro script _ c c' h
    obtain rfl := Except.ok.inj h
    rfl
  obtain ⟨_, applied⟩ := migrations_all_or_nothing tenthInterrupted
    [twoScripts, twoScripts, twoScripts] ⟨⟨none, []⟩, none, [], 0⟩
  refine ⟨fun directory _ => spares directory, applied fun directory _ => spares directory,
    ?_, ?_, ?_⟩
  all_goals
    simp only [Target.runs, List.foldl_cons, List.foldl_nil, Target.run, migrateIn,
      prepareMigration_twoScripts]
    rfl

end CatalogSearch.Database
