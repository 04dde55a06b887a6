/-
The times that a backup writes: `acquireTime` in the Lease, and the time at
the head of every id.

`microTime_spec`: what the Lease is given has six digits of a second's
fraction and is the same instant. `Key_lt_iff`: keys are in the order in which
their runs started, and runs of one millisecond in that of their pods' names.
-/
import CartyxInfra.Lib.Calendar
import CartyxInfra.Backup.Cluster

namespace CartyxInfra.Backup

open JString Calendar

/-- `microTime(date)`: `date.toISOString().replace(/Z$/, '000Z')`. -/
def microTime (t : Int) : JString :=
  if (toISOString t).getLast? = some 0x5A then (toISOString t).dropLast ++ utf16 "000Z" else toISOString t

/-- The text of an instant up to the dot before its milliseconds. -/
def stem (t : Int) : JString :=
  yearText (fields t).year ++ (utf16 "-" ++ (digits 2 (fields t).month ++ (utf16 "-" ++
    (digits 2 (fields t).day ++ (utf16 "T" ++ (digits 2 (fields t).hour ++ (utf16 ":" ++
      (digits 2 (fields t).minute ++ (utf16 ":" ++ (digits 2 (fields t).second ++ utf16 "."))))))))))

theorem stem_append (t : Int) (b : JString) : stem t ++ (digits 3 (fields t).ms ++ b) =
    yearText (fields t).year ++ ((fields t).rest (utf16 ":") (utf16 ".") ++ b) := by
  simp [stem, Fields.rest]

theorem microTime_eq (t : Int) : microTime t = stem t ++ (digits 3 (fields t).ms ++ utf16 "000Z") := by
  have hiso : toISOString t = stem t ++ (digits 3 (fields t).ms ++ utf16 "Z") := (stem_append t _).symm
  have hlast : (toISOString t).getLast? = some 0x5A := by
    rw [hiso]
    simp [utf16, units]
  have hdrop : (toISOString t).dropLast = stem t ++ digits 3 (fields t).ms := by
    rw [hiso, ← List.append_assoc]
    exact List.dropLast_concat
  rw [microTime, if_pos hlast, hdrop, List.append_assoc]

theorem digits_mul (ms : Nat) : digits 6 (ms * 1000) = digits 3 ms ++ utf16 "000" := by
  have h10 : ms * 1000 / 10 = ms * 100 := by omega
  have h100 : ms * 100 / 10 = ms * 10 := by omega
  have h1000 : ms * 10 / 10 = ms := by omega
  have hzero (n : Nat) (h : n % 10 = 0) : [(0x30 + n % 10).toUInt16] = utf16 "0" := by
    rw [h]
    rfl
  rw [digits, h10, digits, h100, digits, h1000, hzero _ (by omega), hzero _ (by omega), hzero _ (by omega)]
  simp only [List.append_assoc]
  rfl

/-- **The Lease's time.** It is an instant's text with exactly six digits after the dot, which
are its fraction of a second in microseconds, and it is read as that instant. -/
theorem microTime_spec {t : Int} (h : InRange t) :
    microTime t = stem t ++ (digits 6 ((fields t).ms * 1000) ++ utf16 "Z") ∧
      toISOString t = stem t ++ (digits 3 (fields t).ms ++ utf16 "Z") ∧ readInstant (microTime t) = t := by
  refine ⟨?_, (stem_append t _).symm, ?_⟩
  · rw [microTime_eq, digits_mul, List.append_assoc]
    rfl
  · rw [microTime_eq, stem_append]
    exact readInstant_text h _

/-- An instant within a second. -/
theorem microTime_spec_sample :
    (fields 1722945600789).ms = 789 ∧ readInstant (microTime 1722945600789) = 1722945600789 :=
  ⟨by decide, (microTime_spec (by decide)).2.2⟩

/-- Runs whose stamps are the times they start at. -/
def Setup.at (setup : Setup) (time : PodName → Int) : Setup :=
  { setup with stamp := fun p => dashedISOString (time p) }

/-- **Keys in order.** Keys are in the order in which their runs started, and runs of one
millisecond in that of their pods' names. -/
theorem Key_lt_iff {setup : Setup} {time : PodName → Int} {p q : PodName} (hp : FourDigits (time p))
    (hq : FourDigits (time q)) :
    (setup.at time).Key p < (setup.at time).Key q ↔
      time p < time q ∨ time p = time q ∧ p.text ++ utf16 ".tar.gz" < q.text ++ utf16 ".tar.gz" := by
  have hkey (r : PodName) : (setup.at time).Key r =
      setup.pre ++ (dashedISOString (time r) ++ (utf16 "-" ++ (r.text ++ utf16 ".tar.gz"))) := by
    simp only [Setup.Key, Setup.id, Setup.at, List.append_assoc]
    rfl
  rw [hkey, hkey, append_lt_append_left, dashedISOString_append_lt hp hq, append_lt_append_left]

theorem Key_lt_iff_sample : (sampleSetup.at fun _ => 0).Key first < (sampleSetup.at fun _ => 0).Key second :=
  (Key_lt_iff (by decide) (by decide)).2 (.inr ⟨rfl, by decide⟩)

end CartyxInfra.Backup
