/-
`postgres-backup.yaml`: the nightly dump of the Postgres databases, one shell
script, and its runs one after another in the Job's containers.

What the script's commands do is nature's choice, an `Outcome` for each
database; what becomes of it is the script's. Its options are `set -eu`, so
that a pipeline's status is its last command's, and a `pg_dump` that fails
before a `gzip` that does not is a success (`Masked`).

`faithful_iff`: over any runs, the bucket only receives complete dumps, and
failed dumps are reported, exactly when no run stores the upload that follows
such a pipeline.
-/
import CartyxInfra.Lib.JString
import CartyxInfra.Lib.Shell

namespace CartyxInfra.Platform

open JString Shell

/-- The content of a file or an object. -/
abbrev Bytes := List UInt8

/-! ## The script -/

/-- An object in the bucket, and the database it was uploaded for. -/
structure Stored where
  database : JString
  key : JString
  body : Bytes
  deriving DecidableEq

/-- The objects as they were put, the latest first. -/
abbrev Bucket := List Stored

/-- The object under a key: the last that was stored. -/
def Bucket.get (bucket : Bucket) (key : JString) : Option Bytes :=
  (bucket.find? fun o => o.key == key).map (·.body)

/-- A container: its `/tmp`, the databases it has dumped, and the bucket. -/
structure Container where
  tmp : JString → Option Bytes
  dumped : List JString
  bucket : Bucket

/-- A `curl -T` with `--fail`: one that succeeds has stored what it sent. -/
structure Upload where
  status : Status
  stored : Bool
  ok : status = 0 → stored = true

/-- How the commands for one database go. -/
structure Outcome where
  /-- The status of `date +%F`, and the date. -/
  date : Status × JString
  /-- The status of `pg_dump`, and what it has written by its end. -/
  dump : Status × Bytes
  /-- The status of `gzip`, and what the file has where that is not 0. -/
  gzip : Status × Bytes
  curl : Upload
  rm : Status

/-- A run of the script. -/
structure Attempt where
  /-- The status of `apk add`. -/
  apk : Status
  outcome : JString → Outcome

/-- `for db in umami glitchtip`. -/
def databases : List JString := ["umami", "glitchtip"].map utf16

/-- `${db}-$(date +%F).sql.gz`. -/
def file (db : JString) (outcome : Outcome) : JString :=
  db ++ utf16 "-" ++ outcome.date.2 ++ utf16 ".sql.gz"

/-- `postgres/$file`. -/
def key (db : JString) (outcome : Outcome) : JString := utf16 "postgres/" ++ file db outcome

section

-- What `gzip` makes of its input.
variable (gz : Bytes → Bytes)

/-- The file `gzip` leaves. -/
def Outcome.zipped (outcome : Outcome) (input : Bytes) : Bytes :=
  if outcome.gzip.1 = 0 then gz input else outcome.gzip.2

/-- `date +%F`, by its outcome. -/
def date (outcome : Outcome) : Container → Status × Container := fun c => (outcome.date.1, c)

/-- `echo`, whose output is of no concern. -/
def echo : Container → Status × Container := fun c => (0, c)

/-- `pg_dump`, by its outcome. -/
def pg_dump (db : JString) (outcome : Outcome) : Stage Container := fun _ c =>
  (outcome.dump.1, outcome.dump.2, { c with dumped := db :: c.dumped })

/-- `gzip > "/tmp/$file"`. -/
def gzip (db : JString) (outcome : Outcome) : Stage Container := fun input c =>
  (outcome.gzip.1, [],
    { c with tmp := Function.update c.tmp (file db outcome) (some (outcome.zipped gz input)) })

/-- `curl -T "/tmp/$file"`, which fails without the file. -/
def curl (db : JString) (outcome : Outcome) : Container → Status × Container := fun c =>
  match c.tmp (file db outcome) with
  | none => (26, c)
  | some body => (outcome.curl.status,
      if outcome.curl.stored then { c with bucket := ⟨db, key db outcome, body⟩ :: c.bucket } else c)

/-- `rm -f "/tmp/$file"`. -/
def rm (db : JString) (outcome : Outcome) : Container → Status × Container := fun c =>
  (outcome.rm, { c with tmp := Function.update c.tmp (file db outcome) none })

/-- The loop's body. -/
def backup (outcome : JString → Outcome) (db : JString) : Cmd JString Container :=
  .seq (.simple (date (outcome db))) <|
  .seq (.simple echo) <|
  .seq (.pipeline [pg_dump db (outcome db), gzip gz db (outcome db)]) <|
  .seq (.simple echo) <|
  .seq (.simple (curl db (outcome db))) <|
  .simple (rm db (outcome db))

/-- The script of the container. -/
def script (attempt : Attempt) : Cmd JString Container :=
  .seq (.simple fun c => (attempt.apk, c)) <|
  .seq (.forIn databases (backup gz attempt.outcome)) <|
  .simple echo

/-- `set -eu`. -/
def options : Options := ⟨true, false⟩

/-- A run in a new container: its status, and the container it leaves. -/
def Attempt.run (o : Options) (attempt : Attempt) (bucket : Bucket) : Status × Container :=
  let (flow, c) := eval o (script gz attempt) ⟨fun _ => none, [], bucket⟩
  (flow.status, c)

end

/-! ## What a run comes to -/

section

variable (o : Options)

/-- The pipeline's status. -/
def Outcome.piped (outcome : Outcome) : Status := o.pipeStatus [outcome.dump.1, outcome.gzip.1]

/-- The loop goes on after a database. -/
def Outcome.passes (outcome : Outcome) : Bool :=
  outcome.piped o = 0 && outcome.curl.status = 0 && outcome.rm = 0

/-- The databases a loop comes to dump. -/
def reached (outcome : JString → Outcome) : List JString → List JString
  | [] => []
  | db :: rest =>
    if (outcome db).date.1 = 0 then
      db :: if (outcome db).passes o then reached outcome rest else []
    else []

/-- The databases a run comes to dump. -/
def Attempt.reached (attempt : Attempt) : List JString :=
  if attempt.apk = 0 then Platform.reached o attempt.outcome databases else []

/-- The upload that follows the pipeline stores an object. -/
def Outcome.sends (outcome : Outcome) : Bool := outcome.piped o = 0 && outcome.curl.stored

/-- A failed dump behind a pipeline that succeeds, and the upload stored. -/
def Masked (outcome : Outcome) : Prop := outcome.dump.1 ≠ 0 ∧ outcome.sends o = true

end

/-! ## The claim -/

/-- The object is a complete dump: all that a `pg_dump` that exited with 0
had written, under the database's key. -/
def Complete (gz : Bytes → Bytes) (attempt : Attempt) (object : Stored) : Prop :=
  (attempt.outcome object.database).dump.1 = 0 ∧
    object.key = key object.database (attempt.outcome object.database) ∧
    object.body = gz (attempt.outcome object.database).dump.2

/-- A run only adds complete dumps to the bucket, and ends with a failure
whenever a dump has failed, the database's object then as it was. -/
structure Faithful (gz : Bytes → Bytes) (o : Options) (attempt : Attempt) (bucket : Bucket) : Prop where
  written : ∃ added, (attempt.run gz o bucket).2.bucket = added ++ bucket ∧
    ∀ object ∈ added, Complete gz attempt object
  reported : ∀ db ∈ (attempt.run gz o bucket).2.dumped, (attempt.outcome db).dump.1 ≠ 0 →
    (attempt.run gz o bucket).1 ≠ 0 ∧
      Bucket.get (attempt.run gz o bucket).2.bucket (key db (attempt.outcome db)) =
        Bucket.get bucket (key db (attempt.outcome db))

/-- The bucket after some runs. -/
def after (gz : Bytes → Bytes) (o : Options) (attempts : List Attempt) (bucket : Bucket) : Bucket :=
  attempts.foldl (fun bucket attempt => (attempt.run gz o bucket).2.bucket) bucket

/-- Every one of some runs is faithful, from the bucket it finds. -/
def AllFaithful (gz : Bytes → Bytes) (o : Options) (attempts : List Attempt) (bucket : Bucket) : Prop :=
  ∀ before attempt rest, attempts = before ++ attempt :: rest →
    Faithful gz o attempt (after gz o before bucket)

/-! ## What a run leaves -/

section

variable {gz : Bytes → Bytes} {o : Options} {outcome : JString → Outcome}

/-- What is put for a database. -/
def upload (gz : Bytes → Bytes) (outcome : JString → Outcome) (db : JString) : Stored :=
  ⟨db, key db (outcome db), (outcome db).zipped gz (outcome db).dump.2⟩

/-- What is put for some databases, the latest first. -/
def uploads (gz : Bytes → Bytes) (o : Options) (outcome : JString → Outcome) (dbs : List JString) :
    List Stored :=
  ((dbs.filter fun db => (outcome db).sends o).map (upload gz outcome)).reverse

/-- How a list of commands ends that succeeds or not. -/
def Ends (success : Prop) (flow : Flow) : Prop :=
  (success → flow = .next 0) ∧ (¬ success → ∃ status, status ≠ 0 ∧ flow = .exit status)

theorem uploads_cons {db : JString} {dbs : List JString} :
    uploads gz o outcome (db :: dbs) =
      uploads gz o outcome dbs ++ if (outcome db).sends o then [upload gz outcome db] else [] := by
  unfold uploads
  rw [List.filter_cons]
  split <;> simp

theorem Ends.success {success : Prop} (h : success) : Ends success (.next 0) :=
  ⟨fun _ => rfl, fun hn => absurd h hn⟩

theorem Ends.failure {success : Prop} {status : Status} (h : ¬ success) (hs : status ≠ 0) :
    Ends success (.exit status) := ⟨fun hn => absurd hn h, fun _ => ⟨status, hs, rfl⟩⟩

theorem uploads_singleton {db : JString} :
    uploads gz o outcome [db] = if (outcome db).sends o then [upload gz outcome db] else [] := by
  rw [uploads_cons]
  rfl

/-- One database: what is dumped and put, and whether the loop goes on. -/
theorem backup_spec (gz : Bytes → Bytes) (outcome : JString → Outcome) (ho : o.errexit = true) (db : JString)
    (c : Container) :
    ∃ flow c', eval o (backup gz outcome db) c = (flow, c') ∧
      c'.dumped = (if (outcome db).date.1 = 0 then [db] else []) ++ c.dumped ∧
      c'.bucket = (if (outcome db).date.1 = 0 then uploads gz o outcome [db] else []) ++ c.bucket ∧
      Ends ((outcome db).date.1 = 0 ∧ (outcome db).passes o = true) flow := by
  simp only [backup, eval_seq_simple ho, eval_seq_pipeline ho, eval_simple, echo, if_true, pipe, pg_dump,
    gzip, curl, Function.update_self, date, uploads_singleton]
  by_cases hdate : (outcome db).date.1 = 0
  · simp only [hdate, if_true]
    by_cases hpipe : o.pipeStatus [(outcome db).dump.1, (outcome db).gzip.1] = 0
    · simp only [hpipe, if_true]
      have hsends : (outcome db).sends o = (outcome db).curl.stored := by
        simp [Outcome.sends, Outcome.piped, hpipe]
      rw [hsends]
      by_cases hcurl : (outcome db).curl.status = 0
      · simp only [hcurl, if_true, (outcome db).curl.ok hcurl]
        by_cases hrm : (outcome db).rm = 0
        · refine ⟨_, _, rfl, rfl, rfl, ?_⟩
          simp only [rm, hrm, ended_zero]
          exact .success (by simp [Outcome.passes, Outcome.piped, hpipe, hcurl, hrm])
        · refine ⟨_, _, rfl, rfl, rfl, ?_⟩
          simp only [rm, ended_failed ho hrm]
          exact .failure (fun h => by simp [Outcome.passes, hrm] at h) hrm
      · simp only [hcurl, if_false]
        refine ⟨_, _, rfl, ?_, ?_, .failure (fun h => by simp [Outcome.passes, hcurl] at h) hcurl⟩
        · split <;> rfl
        · split <;> rfl
    · simp only [hpipe, if_false]
      refine ⟨_, _, rfl, rfl, ?_, .failure (fun h => ?_) hpipe⟩
      · simp [Outcome.sends, Outcome.piped, hpipe]
      · simp [Outcome.passes, Outcome.piped, hpipe] at h
  · simp only [hdate, if_false]
    exact ⟨_, _, rfl, rfl, rfl, .failure (fun h => h.1) hdate⟩

/-- The loop: the databases it comes to are dumped, and put where the upload
stores. -/
theorem loop_spec (gz : Bytes → Bytes) (outcome : JString → Outcome) (ho : o.errexit = true) :
    ∀ (dbs : List JString) (c : Container),
    ∃ flow c', loop (fun db => eval o (backup gz outcome db)) dbs 0 c = (flow, c') ∧
      c'.dumped = (reached o outcome dbs).reverse ++ c.dumped ∧
      c'.bucket = uploads gz o outcome (reached o outcome dbs) ++ c.bucket ∧
      Ends (∀ db ∈ dbs, (outcome db).date.1 = 0 ∧ (outcome db).passes o = true) flow
  | [], c => ⟨_, _, rfl, rfl, rfl, .success (by simp)⟩
  | db :: rest, c => by
    obtain ⟨flow, c₁, heval, hdumped, hbucket, hsuccess, hfailure⟩ := backup_spec gz outcome ho db c
    by_cases hpass : (outcome db).date.1 = 0 ∧ (outcome db).passes o = true
    · obtain ⟨flow', c', hloop, hdumped', hbucket', hends⟩ := loop_spec gz outcome ho rest c₁
      refine ⟨flow', c', ?_, ?_, ?_, ?_⟩
      · simp only [loop, heval, hsuccess hpass, hloop]
      · simp [reached, hpass, hdumped', hdumped]
      · have hcons : uploads gz o outcome (db :: reached o outcome rest) = _ := uploads_cons
        simp only [reached, hpass, if_true, hbucket', hbucket, hcons, uploads_singleton, List.append_assoc]
      · simpa only [List.forall_mem_cons, hpass, and_self, true_and] using hends
    · obtain ⟨status, hs, hflow⟩ := hfailure hpass
      refine ⟨flow, c₁, ?_, ?_, ?_, ?_⟩
      · simp only [loop, heval, hflow]
      · rw [hdumped]
        simp only [reached]
        split <;> simp_all
      · rw [hbucket]
        simp only [reached]
        split <;> simp_all [uploads]
      · rw [hflow]
        exact .failure (fun h => hpass (h db (by simp))) hs

variable (gz) in
/-- A run: what it dumps and puts, and when it succeeds. -/
theorem run_spec (ho : o.errexit = true) (attempt : Attempt) (bucket : Bucket) :
    (attempt.run gz o bucket).2.dumped = (attempt.reached o).reverse ∧
      (attempt.run gz o bucket).2.bucket = uploads gz o attempt.outcome (attempt.reached o) ++ bucket ∧
      ((attempt.run gz o bucket).1 = 0 ↔ attempt.apk = 0 ∧
        ∀ db ∈ databases, (attempt.outcome db).date.1 = 0 ∧ (attempt.outcome db).passes o = true) := by
  obtain ⟨flow, c, hloop, hdumped, hbucket, hends⟩ :=
    loop_spec gz attempt.outcome ho databases ⟨fun _ => none, [], bucket⟩
  simp only [Attempt.run, script, eval_seq_simple ho, Attempt.reached]
  by_cases hapk : attempt.apk = 0
  · simp only [hapk, if_true, true_and]
    have hfor : eval o (.forIn databases (backup gz attempt.outcome))
      ⟨fun _ => none, [], bucket⟩ = (flow, c) :=
      hloop
    rw [List.append_nil] at hdumped
    by_cases hall : ∀ db ∈ databases,
        (attempt.outcome db).date.1 = 0 ∧ (attempt.outcome db).passes o = true
    · rw [eval_seq_next (by rw [hfor, hends.1 hall])]
      exact ⟨hdumped, hbucket, iff_of_true (by rw [eval_simple, echo, ended_zero]; rfl) hall⟩
    · obtain ⟨status, hs, hflow⟩ := hends.2 hall
      rw [eval_seq_exit (by rw [hfor, hflow])]
      exact ⟨hdumped, hbucket, iff_of_false hs hall⟩
  · simp only [hapk, if_false, false_and, iff_false]
    exact ⟨rfl, rfl, hapk⟩

/-! ## Faithful runs -/

theorem gzip_of_piped {outcome : Outcome} (h : outcome.piped o = 0) : outcome.gzip.1 = 0 := by
  by_cases hp : o.pipefail = true
  · exact (pipeStatus_pipefail hp).mp h _ (by simp)
  · rwa [Outcome.piped, ← List.singleton_append, pipeStatus_last (by simpa using hp)] at h

theorem mem_reached : ∀ {dbs : List JString} {db : JString}, db ∈ reached o outcome dbs → db ∈ dbs
  | db' :: rest, db, h => by
    simp only [reached] at h
    split at h
    · split at h
      · rcases List.mem_cons.mp h with rfl | h
        · simp
        · exact List.mem_cons_of_mem _ (mem_reached h)
      · simp_all
    · simp at h

theorem Attempt.mem_reached {attempt : Attempt} {db : JString} (h : db ∈ attempt.reached o) :
    db ∈ databases := by
  unfold Attempt.reached at h
  split at h
  · exact Platform.mem_reached h
  · simp at h

/-- The two databases have different keys, whatever the dates. -/
theorem key_injective {db db' : JString} (h : db ∈ databases) (h' : db' ∈ databases) {a b : Outcome}
    (he : key db a = key db' b) : db = db' := by
  simp only [databases, List.map_cons, List.map_nil, List.mem_cons, List.not_mem_nil, or_false] at h h'
  simp only [key, file, List.append_assoc, List.append_cancel_left_eq] at he
  have hne : ∀ s t : JString, utf16 "umami" ++ s ≠ utf16 "glitchtip" ++ t := by
    intro s t hst
    have hhead : some (117 : UInt16) = some 103 := congrArg List.head? hst
    exact absurd hhead (by decide)
  rcases h with rfl | rfl <;> rcases h' with rfl | rfl
  · rfl
  · exact absurd he (hne _ _)
  · exact absurd he.symm (hne _ _)
  · rfl

theorem Bucket.get_append {added bucket : Bucket} {key : JString} (h : ∀ o ∈ added, o.key ≠ key) :
    Bucket.get (added ++ bucket) key = Bucket.get bucket key := by
  have hnone : added.find? (fun o => o.key == key) = none := by simpa using h
  simp [Bucket.get, hnone]

theorem mem_uploads {dbs : List JString} {object : Stored} :
    object ∈ uploads gz o outcome dbs ↔
      ∃ db ∈ dbs, (outcome db).sends o = true ∧ upload gz outcome db = object := by
  simp [uploads, and_assoc]

theorem Outcome.sends_of_passes {outcome : Outcome} (h : outcome.passes o = true) :
    outcome.sends o = true := by
  simp only [Outcome.passes, Outcome.sends, Bool.and_eq_true, decide_eq_true_eq] at h ⊢
  exact ⟨h.1.1, outcome.curl.ok h.1.2⟩

/-- A run is faithful exactly when it masks no failed dump. -/
theorem run_faithful_iff (ho : o.errexit = true) {attempt : Attempt} {bucket : Bucket} :
    Faithful gz o attempt bucket ↔ ∀ db ∈ attempt.reached o, ¬ Masked o (attempt.outcome db) := by
  obtain ⟨hdumped, hbucket, hstatus⟩ := run_spec gz ho attempt bucket
  constructor
  · rintro ⟨⟨added, hadded, hcomplete⟩, -⟩ db hdb ⟨hfailed, hsends⟩
    rw [hbucket, List.append_cancel_right_eq] at hadded
    subst hadded
    exact hfailed (hcomplete _ (mem_uploads.mpr ⟨db, hdb, hsends, rfl⟩)).1
  · intro hmask
    refine ⟨⟨_, hbucket, fun object hobject => ?_⟩, fun db hdb hfailed => ?_⟩
    · obtain ⟨db, hdb, hsends, rfl⟩ := mem_uploads.mp hobject
      have hdump : (attempt.outcome db).dump.1 = 0 := by
        by_contra hfailed
        exact hmask db hdb ⟨hfailed, hsends⟩
      have hpiped : (attempt.outcome db).piped o = 0 := by
        simp only [Outcome.sends, Bool.and_eq_true, decide_eq_true_eq] at hsends
        exact hsends.1
      exact ⟨hdump, rfl, by simp [upload, Outcome.zipped, gzip_of_piped hpiped]⟩
    · rw [hdumped, List.mem_reverse] at hdb
      have hsends : ¬ (attempt.outcome db).sends o = true := fun h => hmask db hdb ⟨hfailed, h⟩
      refine ⟨fun h => hsends ?_, ?_⟩
      · exact Outcome.sends_of_passes ((hstatus.mp h).2 db (Attempt.mem_reached hdb)).2
      · rw [hbucket]
        refine Bucket.get_append fun object hobject => ?_
        obtain ⟨db', hdb', hsends', rfl⟩ := mem_uploads.mp hobject
        rintro he
        obtain rfl := key_injective (Attempt.mem_reached hdb') (Attempt.mem_reached hdb) he
        exact hsends hsends'

end

/-- **The backups are faithful** exactly when no run stores what is left of a
failed dump. -/
theorem faithful_iff (gz : Bytes → Bytes) (attempts : List Attempt) (bucket : Bucket) :
    AllFaithful gz options attempts bucket ↔
      ∀ attempt ∈ attempts, ∀ db ∈ attempt.reached options, ¬ Masked options (attempt.outcome db) := by
  constructor
  · intro h attempt hm
    obtain ⟨before, rest, he⟩ := List.append_of_mem hm
    exact (run_faithful_iff rfl).mp (h before attempt rest he)
  · intro h before attempt rest he
    exact (run_faithful_iff rfl).mpr (h attempt (by simp [he]))

/-- A `pg_dump` that breaks off, and no other failure. -/
def broken : Attempt where
  apk := 0
  outcome db :=
    { date := (0, utf16 "2026-09-16")
      dump := if db = utf16 "umami" then (1, [45]) else (0, [45, 45])
      gzip := (0, [])
      curl := ⟨0, true, fun _ => rfl⟩
      rm := 0 }

theorem faithful_broken : ¬ ∀ (gz : Bytes → Bytes) (attempts : List Attempt) (bucket : Bucket),
    AllFaithful gz options attempts bucket := by
  intro h
  have hf := h id [broken] [] [] broken [] rfl
  exact absurd rfl (hf.reported (utf16 "umami") (by decide +kernel) (by decide)).1

end CartyxInfra.Platform
