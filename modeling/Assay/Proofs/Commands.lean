/-
# Assay.Proofs.Commands -- what the commands of a trial are read as

Each command of a trial stands for an `Order`: to apply the patch, to show the changes in
the code, or to run the script.  The paths it names are put into its line as they are, so
a shell reads the order in it exactly where every one of them can be written as it is.
`Conveyed` says so for one command; all commands of all trials are of this kind,
whatever the runner does (`Trial.run_conveyed`).

That the path of the patch is read does not yet mean that it leads to the patch.  It is
followed from the directory of the code, while it was written from the directory of the
host: a path that is not absolute leads to what was written only if these two are the
same as far up as it climbs.
-/
import Assay.Proofs.Course
import Assay.Proofs.Phrases
import Assay.Proofs.Places
import Assay.Proofs.Steps

namespace Assay.Evaluation

set_option autoImplicit false

open Bytes Shell

/-! ## Orders -/

/-- What a command of a trial is to do. -/
inductive Order where
  | applyStrictly
  | applyLeniently
  | showChanges
  | runScript (script : Bytes)
  deriving DecidableEq, Repr

namespace Order

/-- The program that is to run, and its arguments. -/
def words (trial : Trial) : Order → List Bytes
  | applyStrictly => [ascii "git", ascii "apply", ascii "-v", trial.patchPath]
  | applyLeniently =>
      [ascii "patch", ascii "--batch", ascii "--fuzz=5", ascii "-p1", ascii "-i", trial.patchPath]
  | showChanges => [ascii "git", ascii "diff"]
  | runScript script => [ascii "/bin/bash", script]

/-- The change to the directory of the code that comes first. -/
def change (job : Job) : Order → List Token
  | runScript _ => []
  | _ => [.word (ascii "cd"), .word job.codeSpace, .operator (ascii "&&")]

/-- The order as a line of a shell. -/
def tokens (trial : Trial) (job : Job) (order : Order) : List Token :=
  order.change job ++ (order.words trial).map .word

/-- The paths that the order names. -/
def paths (trial : Trial) (job : Job) : Order → List Bytes
  | applyStrictly => [job.codeSpace, trial.patchPath]
  | applyLeniently => [job.codeSpace, trial.patchPath]
  | showChanges => [job.codeSpace]
  | runScript script => [script]

variable (trial : Trial) (job : Job)

/-- All other words of an order can be written as they are. -/
theorem literal_tokens_iff (order : Order) :
    (∀ text, .word text ∈ order.tokens trial job → Rules.shell.Literal text) ↔
      ∀ path ∈ order.paths trial job, Rules.shell.Literal path := by
  have usual : ∀ word ∈ [ascii "cd", ascii "git", ascii "apply", ascii "-v", ascii "patch",
      ascii "--batch", ascii "--fuzz=5", ascii "-p1", ascii "-i", ascii "diff", ascii "/bin/bash"],
      Rules.shell.Literal word := by
    decide +kernel
  simp only [List.forall_mem_cons] at usual
  cases order <;> simp [tokens, change, words, paths, usual]

/-- The operators of an order are operators of a shell. -/
theorem signs_tokens (order : Order) :
    ∀ text, .operator text ∈ order.tokens trial job → ∀ b ∈ text, Rules.shell.IsSign b := by
  have signs : ∀ b ∈ ascii "&&", Rules.shell.IsSign b := by decide +kernel
  intro text member
  cases order with
  | runScript script => simp [tokens, change, words] at member
  | applyStrictly | applyLeniently | showChanges =>
      obtain rfl : text = ascii "&&" := by simpa [tokens, change, words] using member
      exact signs

end Order

/-! ## Commands -/

/-- What is to be said of a command that was issued for an order. -/
structure Conveyed (trial : Trial) (job : Job) (issued : Issued) (order : Order) : Prop where
  was : issued.command = line (order.tokens trial job)
  /-- The script to run is the one that was placed last. -/
  placed : ∀ script, order = .runScript script →
    ∃ placing, (trial.placeScript job).run placing = (script, issued.host)
  /-- A shell reads the order where the paths can be written as they are. -/
  shell : Rules.shell.read? issued.command =
      some ((order.tokens trial job).flatMap Token.lexemes) ↔
    ∀ path ∈ order.paths trial job, Rules.shell.Literal path
  /-- So it is when the script is run without a shell. -/
  direct : ∀ script, order = .runScript script →
    (splitWords issued.command = .ok [ascii "/bin/bash", script] ↔ Rules.direct.Literal script)

/-- A command that may be issued stands for an order. -/
theorem Trial.Due.exists_order {trial : Trial} {job : Job} {host : Host} {command : Bytes}
    (due : trial.Due job host command) :
    ∃ order : Order, command = line (order.tokens trial job) ∧
      ∀ script, order = .runScript script →
        ∃ placing, (trial.placeScript job).run placing = (script, host) := by
  cases due with
  | strict =>
      refine ⟨.applyStrictly, ?_, fun _ => Order.noConfusion⟩
      simp [strictCommand, inCodeSpace, Order.tokens, Order.change, Order.words, line_cons_cons,
        line_singleton, Token.text, ascii, space]
  | lenient =>
      refine ⟨.applyLeniently, ?_, fun _ => Order.noConfusion⟩
      simp [lenientCommand, inCodeSpace, Order.tokens, Order.change, Order.words, line_cons_cons,
        line_singleton, Token.text, ascii, space]
  | diff =>
      refine ⟨.showChanges, ?_, fun _ => Order.noConfusion⟩
      simp [diffCommand, inCodeSpace, Order.tokens, Order.change, Order.words, line_cons_cons,
        line_singleton, Token.text, ascii, space]
  | @test placing script placed =>
      refine ⟨.runScript script, ?_, ?_⟩
      · simp [testCommand, Order.tokens, Order.change, Order.words, line_cons_cons,
          line_singleton, Token.text, ascii, space]
      · rintro _ ⟨⟩
        exact ⟨placing, placed⟩

theorem Trial.Due.exists_conveyed {trial : Trial} {job : Job} {issued : Issued}
    (due : trial.Due job issued.host issued.command) :
    ∃ order, Conveyed trial job issued order := by
  obtain ⟨order, was, placed⟩ := due.exists_order
  refine ⟨order, was, placed, ?_, ?_⟩
  · rw [was, Rules.read?_line_iff rfl (order.signs_tokens trial job), order.literal_tokens_iff]
  · rintro script rfl
    have bash : Rules.direct.Literal (ascii "/bin/bash") := by decide +kernel
    have read : splitWords (line ([ascii "/bin/bash", script].map .word)) =
        .ok [ascii "/bin/bash", script] ↔ _ := splitWords_line_iff
    rw [was, Order.tokens, Order.change, Order.words, List.nil_append, read]
    simp [bash]

/-! ## Trials -/

namespace Trial

theorem openedHost_directory (trial : Trial) (runner : Runner) (job : Job) (host : Host) :
    (trial.openedHost runner job host).directory = host.directory := by
  have opened := congrArg Host.directory
    (trial.keeps_beyond_openDirectory ((announce runner job).run host).2)
  have announces : Keeps Host.beyond (announce runner job) := keeps_beyond_log _ _
  have announced := congrArg Host.directory (announces host)
  exact opened.trans announced

/-- **Every command of a trial stands for an order, and is read as that order exactly
where the paths that it names can be written as they are**, by a shell and without one;
and what the path of the patch leads to in another directory is what was written exactly
where the path is absolute or that directory is, as far up as the path climbs, the one
that it was written from.  So it is for every runner. -/
theorem run_conveyed (trial : Trial) (runner : Runner) (job : Job) (host : Host) :
    (∀ issued ∈ (((trial.run runner job).run.run []).run host).1.2,
      ∃ order, Conveyed trial job issued order) ∧
    ∀ tree place location found,
      (trial.openedHost runner job host).files.resolve
          (trial.openedHost runner job host).directory trial.patchPath = .ok location →
        FileTree.resolve tree place trial.patchPath = .ok found →
          (found = location ↔ Path.isAbsolute trial.patchPath = true ∨
            FileTree.holder^[FileTree.climbs trial.patchPath] place =
              FileTree.holder^[FileTree.climbs trial.patchPath] host.directory) := by
  constructor
  · let invariant : Invariant := fun journal _ =>
      ∀ issued ∈ journal, trial.Due job issued.host issued.command
    have issues : ∀ command journal host, trial.Due job host command → invariant journal host →
        (trial.issue runner command).Ends host journal (fun _ => invariant)
          (fun _ => invariant) := by
      intro command journal host due earlier
      refine trial.issue_enters runner command fun issued was here => ?_
      intro other member
      rcases List.mem_append.1 member with isEarlier | isLast
      · exact earlier other isEarlier
      · obtain rfl := List.mem_singleton.1 isLast
        rw [was, here]
        exact due
    have kept : (trial.run runner job).Maintains invariant :=
      trial.run_maintains job (fun _ _ _ _ _ holds => holds) issues
    have begins : invariant [] host := by simp [invariant]
    intro issued member
    have due := kept.holds begins issued member
    exact due.exists_conveyed
  · intro tree place location found written read
    rw [← trial.openedHost_directory runner job host]
    exact FileTree.resolve_eq_iff written read

end Trial

/-- The journal of a trial of the small job. -/
def smallJournal (trial : Trial) : List Issued :=
  (((trial.run reluctantRunner smallJob).run.run []).run Host.bare).1.2

/-- A tree in which the directory of the code has a `work` of its own. -/
def treeWithCode : FileTree :=
  let code := FileTree.put (.bare false) (ascii "/testbed") .directory
  code.put (ascii "/testbed/work") .directory

/-- Five commands are issued and conveyed; seen from the code, the path of the patch leads
elsewhere. -/
theorem smallTrial_conveyed :
    (smallJournal smallTrial).length = 5 ∧
      (∀ issued ∈ smallJournal smallTrial,
        ∃ order, Conveyed smallTrial smallJob issued order) ∧
      ascii "/testbed/work/patch.diff" ≠ ascii "/work/patch.diff" := by
  have conveyed := Trial.run_conveyed smallTrial reluctantRunner smallJob Host.bare
  have written : (smallTrial.openedHost reluctantRunner smallJob Host.bare).files.resolve
      (smallTrial.openedHost reluctantRunner smallJob Host.bare).directory smallTrial.patchPath =
        .ok (ascii "/work/patch.diff") :=
    ok_of_toOption_eq_some (by decide +kernel)
  have read : treeWithCode.resolve (ascii "/testbed") smallTrial.patchPath =
      .ok (ascii "/testbed/work/patch.diff") :=
    ok_of_toOption_eq_some (by decide +kernel)
  refine ⟨by decide +kernel, conveyed.1, ?_⟩
  rw [ne_eq, conveyed.2 _ _ _ _ written read]
  decide +kernel

/-- A trial in a directory with a space in its name. -/
def spacedTrial : Trial :=
  { smallTrial with directory := ascii "my work" }

/-- With a space in the name of the directory the shell gives `git apply` two paths, of
which none is that of the patch; and where the directory is not absolute, the one path is
followed from the code, where nothing is. -/
theorem spacedTrial_misread :
    (smallJournal spacedTrial).head?.bind (fun strict => Rules.shell.read? strict.command) =
        some ([ascii "cd", ascii "/testbed"].map .word ++ Lexeme.signs (ascii "&&") ++
          [ascii "git", ascii "apply", ascii "-v", ascii "my", ascii "work/patch.diff"].map .word) ∧
      (smallJournal smallTrial).head?.map (fun strict =>
        ((strict.host.files.look strict.host.directory smallTrial.patchPath).toOption.isSome,
          ((strict.host.files.put (ascii "/testbed") .directory).look (ascii "/testbed")
            smallTrial.patchPath).toOption.isSome)) =
        some (true, false) := by
  decide +kernel

end Assay.Evaluation
