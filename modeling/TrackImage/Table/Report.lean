import TrackImage.Table.Verdict

/-!
# Scan reports

A report counts the verdicts of a scan by kind and lists the findings in input
order. It is a function of the measured length and the verdicts alone.
-/

namespace TrackImage.Table

structure Report where
  /-- Length of the whole input. -/
  length : Nat
  windows : Nat
  findings : List Finding
  notPrintable : Nat
  nullWindows : Nat
  previousNotNull : Nat
  deriving DecidableEq, Repr

namespace Report

def ofVerdicts (length : Nat) (verdicts : List Verdict) : Report where
  length := length
  windows := verdicts.length
  findings := verdicts.filterMap Verdict.finding?
  notPrintable := verdicts.count .notPrintable
  nullWindows := verdicts.count .nullWindow
  previousNotNull := verdicts.count .previousNotNull

/-- Every verdict is counted once. -/
theorem windows_ofVerdicts (length : Nat) (verdicts : List Verdict) :
    (ofVerdicts length verdicts).windows =
      (ofVerdicts length verdicts).findings.length + (ofVerdicts length verdicts).notPrintable +
        (ofVerdicts length verdicts).nullWindows +
        (ofVerdicts length verdicts).previousNotNull := by
  induction verdicts with
  | nil => rfl
  | cons verdict rest ih =>
      simp only [ofVerdicts] at ih ⊢
      cases verdict <;> simp [List.filterMap_cons, Verdict.finding?, ih] <;> omega

def summary (report : Report) : String :=
  toString report.findings.length ++ " tag(s) in " ++ toString report.windows ++ " block(s) (" ++
    toString report.notPrintable ++ " non-ascii, " ++ toString report.nullWindows ++ " null, " ++
    toString report.previousNotNull ++ " not after a null block)"

end Report

end TrackImage.Table
