/-
# Assay.Proofs.Variables -- the variables of a command in a container

The words for a command give it one variable after the other, first those that the host hands on
and then those of the configuration, and of two for one name the later counts.  So what the
command sees is read off the two without an order: a variable of the configuration where there
is one, and any other from the host, if it is to be handed on (`commandWords_variables`).
-/
import Assay.Container.Config
import Assay.Proofs.Acts
import Assay.Proofs.Search

namespace Assay.Container

set_option autoImplicit false

open Bytes

/-- The variables that texts `NAME=value` give to a command: the later of two for one name
counts. -/
def given (texts : List Bytes) : Environment :=
  .ofList (texts.filterMap (cut? [equals]))

/-- The text of a variable is read as that variable. -/
theorem filterMap_cut_texts {entries : List (Bytes × Bytes)}
    (solid : ∀ entry ∈ entries, equals ∉ entry.1) :
    (entries.map fun entry => entry.1 ++ equals :: entry.2).filterMap (cut? [equals]) =
      entries := by
  induction entries with
  | nil => rfl
  | cons entry rest ih =>
      obtain ⟨first, others⟩ := List.forall_mem_cons.1 solid
      rw [List.map_cons, List.filterMap_cons, cut_of_not_mem first, ih others]

/-- Of entries that take their values from the names, a name has its value if it is among
them. -/
theorem get?_handedOn (names : List Bytes) (value? : Bytes → Option Bytes) (below : Environment)
    (name : Bytes) :
    ((names.filterMap fun name => (value? name).map fun value => (name, value)).foldl
        (fun map entry => map.insert entry.1 entry.2) below).get? name =
      (if name ∈ names then value? name else none).or (below.get? name) := by
  induction names generalizing below with
  | nil => simp
  | cons head rest ih =>
      cases known : value? head with
      | none =>
          rw [List.filterMap_cons, known, Option.map_none, ih]
          by_cases same : name = head
          · simp [same, known]
          · simp [same]
      | some value =>
          rw [List.filterMap_cons, known, Option.map_some, List.foldl_cons, ih, KeyMap.get?_insert]
          by_cases same : name = head
          · by_cases again : head ∈ rest <;> simp [same, known, again]
          · simp [same, Ne.symm same]

namespace Config

variable {config : Config}

theorem equals_not_mem_entries (host : Host)
    (own : ∀ name ∈ config.environment.keys, equals ∉ name)
    (handedOn : ∀ name ∈ config.forwarded, equals ∉ name) :
    ∀ entry ∈ config.forwardedEntries host ++ config.environment.toList, equals ∉ entry.1 := by
  refine List.forall_mem_append.2 ⟨fun entry member => ?_, fun entry member => ?_⟩
  · obtain ⟨name, isForwarded, isEntry⟩ := List.mem_filterMap.1 member
    obtain ⟨value, -, rfl⟩ := Option.map_eq_some_iff.1 isEntry
    exact handedOn name isForwarded
  · exact own entry.1 (List.mem_map_of_mem member)

/-- **The words for a command and the variables that they give it.**  The runtime is told to
execute the command, which is one word, in the container; and whatever the names have in common,
the command gets each variable of the configuration, and those that are to be handed on and are
set in the host and not in the configuration. -/
theorem commandWords_variables (host : Host) (command directory : Bytes)
    (own : ∀ name ∈ config.environment.keys, equals ∉ name)
    (handedOn : ∀ name ∈ config.forwarded, equals ∉ name) :
    ∃ texts : List Bytes,
      config.commandWords host command directory =
          config.runtimeWords ++ [ascii "exec", ascii "-w", directory] ++
            texts.flatMap (fun text => [ascii "-e", text]) ++
            [config.identifier, ascii "bash", ascii "-lc", command] ∧
        (∀ text ∈ texts, equals ∈ text) ∧
        ∀ name, (given texts).get? name =
          (config.environment.get? name).or
            (if name ∈ config.forwarded then host.getVariable? name else none) := by
  let entries := config.forwardedEntries host ++ config.environment.toList
  refine ⟨entries.map fun entry => entry.1 ++ equals :: entry.2, ?_, ?_, fun name => ?_⟩
  · rw [List.flatMap_map]
    rfl
  · intro text member
    obtain ⟨entry, -, rfl⟩ := List.mem_map.1 member
    exact List.mem_append_right _ List.mem_cons_self
  · have solid : ∀ entry ∈ entries, equals ∉ entry.1 := equals_not_mem_entries host own handedOn
    have forwarded := get?_handedOn config.forwarded host.getVariable? ∅ name
    rw [KeyMap.get?_empty, Option.or_none] at forwarded
    rw [given, filterMap_cut_texts solid, KeyMap.ofList_append_toList, KeyMap.get?_override,
      ← forwarded]
    rfl

/-- Two variables of its own, and five to be handed on: one of these it has itself, one is named
twice, one is empty, and one is not set. -/
def mixedConfig : Config where
  environment := .ofList [(ascii "A", ascii "own"), (ascii "B", [])]
  forwarded := [ascii "A", ascii "C", ascii "X", ascii "C", ascii "U"]
  identifier := ascii "c1"

def mixedHost : Host :=
  { Host.bare with environ := [ascii "A=host", ascii "C=1=2", ascii "C=3", ascii "X="] }

theorem mixedConfig_variables :
    ∃ texts : List Bytes,
      mixedConfig.commandWords mixedHost (ascii "make test") (ascii "/src") =
          [ascii "nerdctl", ascii "exec", ascii "-w", ascii "/src"] ++
            texts.flatMap (fun text => [ascii "-e", text]) ++
            [ascii "c1", ascii "bash", ascii "-lc", ascii "make test"] ∧
        ([ascii "A", ascii "B", ascii "C", ascii "X", ascii "U"].map fun name =>
            (given texts).get? name) =
          [some (ascii "own"), some [], some (ascii "1=2"), some [], none] := by
  obtain ⟨texts, words, -, values⟩ :=
    @commandWords_variables mixedConfig mixedHost (ascii "make test") (ascii "/src")
      (by decide +kernel) (by decide +kernel)
  refine ⟨texts, words, ?_⟩
  simp only [values]
  decide +kernel

end Config

end Assay.Container
