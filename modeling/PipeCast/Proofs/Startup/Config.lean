import Mathlib.Data.List.Forall2
import PipeCast.Proofs.Startup.Environment
import PipeCast.Proofs.Text.Numeral
import PipeCast.Startup.Config

/-!
# What the settings say

A number is taken if it is written as a numeral within its bound, and otherwise its default is.
Any rendering of a configuration into variables is read back as that configuration, whatever
else the environment holds, and a value that is no text is as good as none.
-/

set_option autoImplicit false

namespace PipeCast.Config

open Text

/-! ## Numbers -/

/-- A value that is a numeral between blanks. -/
def Writes (value : String) (number : Nat) : Prop :=
  ∃ numeral, Padded numeral value.toList ∧ Numeral.Spells numeral number

theorem numeral?_eq_some_iff {limit number : Nat} {value : String} :
    numeral? limit value = some number ↔ Writes value number ∧ number ≤ limit := by
  rw [numeral?, Numeral.read?_eq_some_iff]
  constructor
  · rintro ⟨spells, within⟩
    exact ⟨⟨trim value.toList, padded_trim value.toList, spells⟩, within⟩
  · rintro ⟨⟨numeral, padded, spells⟩, within⟩
    rw [spells.solid.trim_padded padded]
    exact ⟨spells, within⟩

/-- The number of a setting, by what its variable holds. -/
inductive Takes (limit fallback : Nat) : Option String → Nat → Prop where
  | missing : Takes limit fallback none fallback
  | written {value : String} {number : Nat} (writes : Writes value number)
      (within : number ≤ limit) : Takes limit fallback (some value) number
  | refused {value : String} (beyond : ∀ number, Writes value number → limit < number) :
      Takes limit fallback (some value) fallback

theorem takes_iff {limit fallback number : Nat} {found : Option String} :
    (found.bind (numeral? limit)).getD fallback = number ↔ Takes limit fallback found number := by
  constructor
  · rintro rfl
    cases found with
    | none => exact .missing
    | some value =>
        cases read : numeral? limit value with
        | none =>
            simp only [Option.bind_some, read, Option.getD_none]
            apply Takes.refused
            intro number writes
            apply Nat.lt_of_not_le
            intro within
            rw [numeral?_eq_some_iff.mpr ⟨writes, within⟩] at read
            cases read
        | some number =>
            simp only [Option.bind_some, read, Option.getD_some]
            obtain ⟨writes, within⟩ := numeral?_eq_some_iff.mp read
            exact .written writes within
  · intro takes
    cases takes with
    | missing => rfl
    | written writes within =>
        rw [Option.bind_some, numeral?_eq_some_iff.mpr ⟨writes, within⟩, Option.getD_some]
    | @refused value beyond =>
        cases read : numeral? limit value with
        | none => rw [Option.bind_some, read, Option.getD_none]
        | some number =>
            obtain ⟨writes, within⟩ := numeral?_eq_some_iff.mp read
            exact absurd within (Nat.not_le.mpr (beyond number writes))

/-- A number that was read fits its word, so the word denotes the same number. -/
theorem toNat_getD {Word : Type} {toNat : Word → Nat} {ofNat : Nat → Word} {limit : Nat}
    (faithful : ∀ number ≤ limit, toNat (ofNat number) = number) (fallback : Word)
    (found : Option String) :
    toNat (((found.bind (numeral? limit)).map ofNat).getD fallback) =
      (found.bind (numeral? limit)).getD (toNat fallback) := by
  cases read : found.bind (numeral? limit) with
  | none => rfl
  | some number =>
      obtain ⟨value, _, taken⟩ := Option.bind_eq_some_iff.mp read
      exact faithful number (numeral?_eq_some_iff.mp taken).2

theorem toNat_port (lookup : String → Option String) :
    (read lookup).port.toNat =
      ((lookup portVariable).bind (numeral? 65535)).getD defaultPort.toNat := by
  apply toNat_getD
  intro number within
  exact UInt16.toNat_ofNat_of_lt' (Nat.lt_succ_of_le within)

theorem toNat_retrySeconds (lookup : String → Option String) :
    (read lookup).retrySeconds.toNat =
      ((lookup retryVariable).bind (numeral? 18446744073709551615)).getD
        defaultRetrySeconds.toNat := by
  apply toNat_getD
  intro number within
  exact UInt64.toNat_ofNat_of_lt' (Nat.lt_succ_of_le within)

/-- Each of the two numbers is what its variable writes, if that is a numeral between blanks
whose value is in range. Any other value gives exactly the default, like none at all. -/
theorem numbers_follow_numerals (lookup : String → Option String) (number : Nat) :
    ((read lookup).port.toNat = number ↔
      Takes 65535 8420 (lookup "PORT") number) ∧
    ((read lookup).retrySeconds.toNat = number ↔
      Takes 18446744073709551615 5 (lookup "FIFO_RETRY_SECS") number) ∧
    ∀ limit value, numeral? limit value = some number ↔ Writes value number ∧ number ≤ limit := by
  refine ⟨?_, ?_, fun limit value => numeral?_eq_some_iff⟩
  · rw [toNat_port]
    exact takes_iff
  · rw [toNat_retrySeconds]
    exact takes_iff

/-! ## The flag -/

/-- A word in which any letters may be capitals. -/
def InAnyCase (word given : List Char) : Prop :=
  List.Forall₂ (fun letter written => written = letter ∨ written = letter.toUpper) word given

theorem eq_or_eq_toUpper_toLower (written : Char) :
    written = written.toLower ∨ written = written.toLower.toUpper := by
  unfold Char.toLower
  split
  · rename_i capital
    right
    have small : 'a'.val ≤ written.val + ('a'.val - 'A'.val) ∧
        written.val + ('a'.val - 'A'.val) ≤ 'z'.val := by
      grind
    unfold Char.toUpper
    rw [dif_pos small]
    apply Char.ext
    change written.val = written.val + ('a'.val - 'A'.val) + ('A'.val - 'a'.val)
    rw [UInt32.add_assoc]
    exact (UInt32.add_zero written.val).symm
  · exact .inl rfl

theorem inAnyCase_iff {word given : List Char}
    (small : ∀ letter ∈ word, letter.toLower = letter ∧ letter.toUpper.toLower = letter) :
    InAnyCase word given ↔ given.map Char.toLower = word := by
  constructor
  · intro cased
    induction cased with
    | nil => rfl
    | @cons letter written _ _ same _ ih =>
        obtain ⟨⟨lower, capital⟩, later⟩ := List.forall_mem_cons.mp small
        have first : written.toLower = letter := by
          rcases same with rfl | rfl
          · exact lower
          · exact capital
        rw [List.map_cons, first, ih later]
  · rintro rfl
    clear small
    induction given with
    | nil => exact .nil
    | cons written rest ih => exact .cons (eq_or_eq_toUpper_toLower written) ih

theorem toList_affirmatives : affirmatives.map String.toList =
    [['1'], ['t', 'r', 'u', 'e'], ['y', 'e', 's'], ['o', 'n']] := rfl

/-- The letters of a word that sets the flag. -/
def isPlain (letter : Char) : Bool :=
  letter.toLower = letter ∧ letter.toUpper.toLower = letter ∧
    isBlank letter = false ∧ isBlank letter.toUpper = false

theorem isPlain_of_mem_affirmatives {word : String} (listed : word ∈ affirmatives) {letter : Char}
    (member : letter ∈ word.toList) :
    letter.toLower = letter ∧ letter.toUpper.toLower = letter ∧
      isBlank letter = false ∧ isBlank letter.toUpper = false := by
  have plain : (affirmatives.map String.toList).all (fun word => word.all isPlain) = true := by
    rw [toList_affirmatives]
    decide
  have letters := List.all_eq_true.mp plain word.toList (List.mem_map_of_mem listed)
  exact of_decide_eq_true (List.all_eq_true.mp letters letter member)

theorem inAnyCase_affirmative_iff {word : String} {given : List Char}
    (listed : word ∈ affirmatives) :
    InAnyCase word.toList given ↔ given.map Char.toLower = word.toList :=
  inAnyCase_iff fun _ member =>
    have ⟨lower, capital, _⟩ := isPlain_of_mem_affirmatives listed member
    ⟨lower, capital⟩

/-- What a text means for the flag. -/
inductive Means : Bool → List Char → Prop where
  | yes {word : String} {given : List Char} (listed : word ∈ ["1", "true", "yes", "on"])
      (cased : InAnyCase word.toList given) : Means true given
  | no {given : List Char}
      (unlisted : ∀ word ∈ ["1", "true", "yes", "on"], ¬ InAnyCase word.toList (trim given)) :
      Means false given

theorem isAffirmative_iff {value : String} :
    isAffirmative value = true ↔
      ∃ word ∈ affirmatives, InAnyCase word.toList (trim value.toList) := by
  rw [isAffirmative, List.contains_iff_mem]
  constructor
  · intro listed
    refine ⟨_, listed, (inAnyCase_affirmative_iff listed).mpr ?_⟩
    rw [String.toList_ofList]
  · rintro ⟨word, listed, cased⟩
    rw [(inAnyCase_affirmative_iff listed).mp cased, String.ofList_toList]
    exact listed

theorem InAnyCase.isBlank_eq_false {word given : List Char} (cased : InAnyCase word given)
    (solid : ∀ letter ∈ word, isBlank letter = false ∧ isBlank letter.toUpper = false) :
    ∀ written ∈ given, isBlank written = false := by
  induction cased with
  | nil => exact nofun
  | cons same _ ih =>
      obtain ⟨⟨small, capital⟩, later⟩ := List.forall_mem_cons.mp solid
      intro written member
      rcases List.mem_cons.mp member with rfl | rest
      · rcases same with rfl | rfl
        · exact small
        · exact capital
      · exact ih later written rest

theorem solid_of_inAnyCase {word : String} {given : List Char} (listed : word ∈ affirmatives)
    (cased : InAnyCase word.toList given) : Solid given :=
  .of_not_blank (cased.isBlank_eq_false fun _ member =>
    (isPlain_of_mem_affirmatives listed member).2.2)

theorem isAffirmative_of_means {flag : Bool} {given : List Char} {value : String}
    (means : Means flag given) (padded : Padded given value.toList) :
    isAffirmative value = flag := by
  cases means with
  | @yes word _ listed cased =>
      apply isAffirmative_iff.mpr
      refine ⟨word, listed, ?_⟩
      rw [(solid_of_inAnyCase listed cased).trim_padded padded]
      exact cased
  | no unlisted =>
      apply Bool.eq_false_iff.mpr
      intro affirmed
      obtain ⟨word, listed, cased⟩ := isAffirmative_iff.mp affirmed
      rw [padded.trim_eq] at cased
      exact unlisted word listed cased

/-! ## Variables apart -/

def variableNames : List String := [portVariable, pathVariable, retryVariable, relayVariable]

theorem equalsSign_not_mem_of_mem_variableNames {name : String} (listed : name ∈ variableNames) :
    Environment.equalsSign ∉ Utf8.bytesOf name := by
  have plain : variableNames.all (fun name => Environment.equalsSign ∉ Utf8.bytesOf name) = true := by
    decide
  exact of_decide_eq_true (List.all_eq_true.mp plain name listed)

theorem read_congr {lookup other : String → Option String}
    (same : ∀ name ∈ variableNames, lookup name = other name) : read lookup = read other := by
  have port : lookup portVariable = other portVariable := same _ (by simp [variableNames])
  have path : lookup pathVariable = other pathVariable := same _ (by simp [variableNames])
  have retry : lookup retryVariable = other retryVariable := same _ (by simp [variableNames])
  have relay : lookup relayVariable = other relayVariable := same _ (by simp [variableNames])
  rw [read, port, path, retry, relay]
  rfl

theorem readBytes_unset {environment : Environment} {name : String} (listed : name ∈ variableNames)
    (unread : environment.text? name = none) :
    readBytes environment.value? = readBytes (environment.unset name).value? := by
  apply read_congr
  intro other listed'
  by_cases same : name = other
  · subst same
    rw [Environment.value?_unset_self]
    exact unread
  · rw [Environment.value?_unset_of_ne (equalsSign_not_mem_of_mem_variableNames listed)
      (equalsSign_not_mem_of_mem_variableNames listed') same]

/-! ## Renderings -/

/-- A variable that holds a number in decimal, with any zeros before it, perhaps a plus sign,
and any blanks around it. -/
def HoldsNumber (found : Option String) (number : Nat) : Prop :=
  ∃ value signed zeros, found = some value ∧
    Padded (Numeral.decimal signed zeros number) value.toList

/-- A variable that holds a text for the flag, with any blanks around it. -/
def HoldsFlag (found : Option String) (flag : Bool) : Prop :=
  ∃ value given, found = some value ∧ Padded given value.toList ∧ Means flag given

/-- Variables that render a configuration. The path alone stands there as it is. -/
structure Renders (config : Config) (lookup : String → Option String) : Prop where
  port : HoldsNumber (lookup portVariable) config.port.toNat
  path : lookup pathVariable = some config.pipePath
  retry : HoldsNumber (lookup retryVariable) config.retrySeconds.toNat
  relay : HoldsFlag (lookup relayVariable) config.relaysClients

theorem HoldsNumber.takes {found : Option String} {number limit fallback : Nat}
    (holds : HoldsNumber found number) (within : number ≤ limit) :
    Takes limit fallback found number := by
  obtain ⟨value, signed, zeros, rfl, padded⟩ := holds
  exact .written ⟨_, padded, Numeral.spells_decimal signed zeros number⟩ within

theorem HoldsFlag.getD_eq {found : Option String} {flag : Bool} (holds : HoldsFlag found flag) :
    (found.map isAffirmative).getD false = flag := by
  obtain ⟨value, given, rfl, padded, means⟩ := holds
  rw [Option.map_some, Option.getD_some, isAffirmative_of_means means padded]

theorem Renders.read_eq {config : Config} {lookup : String → Option String}
    (renders : config.Renders lookup) (nonempty : config.pipePath ≠ "") :
    read lookup = config := by
  obtain ⟨holdsPort, holdsPath, holdsRetry, holdsRelay⟩ := renders
  have port : (read lookup).port = config.port := by
    apply UInt16.toNat_inj.mp
    rw [toNat_port]
    exact takes_iff.mpr (holdsPort.takes (Nat.le_of_lt_succ config.port.toNat_lt))
  have path : (read lookup).pipePath = config.pipePath := by
    have present : decide (config.pipePath ≠ "") = true := decide_eq_true nonempty
    simp only [read, holdsPath, Option.filter_some, present, ↓reduceIte, Option.getD_some]
  have retry : (read lookup).retrySeconds = config.retrySeconds := by
    apply UInt64.toNat_inj.mp
    rw [toNat_retrySeconds]
    exact takes_iff.mpr (holdsRetry.takes (Nat.le_of_lt_succ config.retrySeconds.toNat_lt))
  have relay : (read lookup).relaysClients = config.relaysClients := holdsRelay.getD_eq
  calc read lookup = ⟨(read lookup).port, (read lookup).pipePath, (read lookup).retrySeconds,
        (read lookup).relaysClients⟩ := rfl
    _ = config := by rw [port, path, retry, relay]

/-- A plain rendering: both numbers without zeros or signs, and the flag as a digit. -/
def plainly (config : Config) : List (String × String) :=
  [(portVariable, toString config.port.toNat), (pathVariable, config.pipePath),
    (retryVariable, toString config.retrySeconds.toNat),
    (relayVariable, if config.relaysClients then "1" else "0")]

theorem holdsNumber_toString (number : Nat) : HoldsNumber (some (toString number)) number := by
  refine ⟨toString number, false, 0, rfl, ?_⟩
  rw [Nat.toString_eq_repr, Nat.toList_repr]
  exact .refl _

theorem renders_plainly (config : Config) :
    config.Renders fun name => config.plainly.lookup name := by
  constructor
  · exact holdsNumber_toString config.port.toNat
  · rfl
  · exact holdsNumber_toString config.retrySeconds.toNat
  · obtain ⟨port, path, retry, relays⟩ := config
    cases relays with
    | true =>
        have listed : "1" ∈ affirmatives := by decide
        exact ⟨"1", ['1'], rfl, .refl _, .yes listed (.cons (.inl rfl) .nil)⟩
    | false =>
        refine ⟨"0", ['0'], rfl, .refl _, .no ?_⟩
        intro word listed cased
        have lower : ['0'] = word.toList := (inAnyCase_affirmative_iff listed).mp cased
        have among : ['0'] ∈ affirmatives.map String.toList := lower ▸ List.mem_map_of_mem listed
        rw [toList_affirmatives] at among
        exact absurd among (by decide)

/-- A configuration with a path can be rendered, and however that is done it is read back from
the variables as it was, also from the environment of a process. Each setting depends on its own
variable alone. A value in the environment that is no text is as good as none. -/
theorem read_restores_rendered (config : Config) (nonempty : config.pipePath ≠ "") :
    (config.Renders fun name => config.plainly.lookup name) ∧
    (∀ lookup, config.Renders lookup → read lookup = config) ∧
    (∀ environment : Environment, config.Renders environment.text? →
      readBytes environment.value? = config) ∧
    (∀ lookup other : String → Option String,
      (lookup portVariable = other portVariable → (read lookup).port = (read other).port) ∧
      (lookup pathVariable = other pathVariable →
        (read lookup).pipePath = (read other).pipePath) ∧
      (lookup retryVariable = other retryVariable →
        (read lookup).retrySeconds = (read other).retrySeconds) ∧
      (lookup relayVariable = other relayVariable →
        (read lookup).relaysClients = (read other).relaysClients)) ∧
    ∀ (environment : Environment) (name : String) (bytes : List UInt8), name ∈ variableNames →
      environment.value? name = some bytes → (∀ text, Utf8.bytesOf text ≠ bytes) →
      readBytes environment.value? = readBytes (environment.unset name).value? := by
  refine ⟨renders_plainly config, fun lookup renders => renders.read_eq nonempty,
    fun environment renders => renders.read_eq nonempty, fun lookup other => ?_,
    fun environment name bytes listed found textless => ?_⟩
  · refine ⟨fun same => ?_, fun same => ?_, fun same => ?_, fun same => ?_⟩
    all_goals
      simp only [read, same]
  · apply readBytes_unset listed
    rw [Environment.text?, found, Option.bind_some]
    apply Option.eq_none_iff_forall_ne_some.mpr
    intro text read
    exact textless text (Utf8.readStrict?_eq_some_iff.mp read).symm

/-- The largest numbers, with blanks, a sign and zeros around them, and then a path that is no
text. -/
theorem marked_numerals_are_read_back :
    let config : Config := ⟨65535, " in ", 18446744073709551615, true⟩
    let environment : Environment :=
      ["PORT=\u3000+0065535\n", "FIFO_PATH= in ", "FIFO_RETRY_SECS=18446744073709551615\t",
        "RELAY_CLIENT_MESSAGES= yEs"].map Utf8.bytesOf
    let damaged : Environment := (Utf8.bytesOf "FIFO_PATH=" ++ [0xFF]) :: environment
    config.pipePath ≠ "" ∧ config.Renders environment.text? ∧
      readBytes environment.value? = config ∧
      readBytes damaged.value? = { config with pipePath := "/tmp/foos-debug.in" } := by
  intro config environment damaged
  have nonempty : config.pipePath ≠ "" := by decide
  have listed : "yes" ∈ affirmatives := by decide
  have cased : InAnyCase "yes".toList ['y', 'E', 's'] :=
    (inAnyCase_affirmative_iff listed).mpr (by decide)
  have port : Padded (Numeral.decimal true 2 65535) "\u3000+0065535\n".toList := by
    apply Padded.intro ['\u3000'] ['\n']
    · exact List.forall_mem_singleton.mpr rfl
    · exact List.forall_mem_singleton.mpr rfl
  have retry : Padded (Numeral.decimal false 0 18446744073709551615)
      "18446744073709551615\t".toList := by
    apply @Padded.intro (Numeral.decimal false 0 18446744073709551615) [] ['\t'] nofun
    exact List.forall_mem_singleton.mpr rfl
  have relay : Padded ['y', 'E', 's'] " yEs".toList := by
    apply Padded.intro [' '] []
    · exact List.forall_mem_singleton.mpr rfl
    · exact nofun
  have renders : config.Renders environment.text? := by
    constructor
    · exact ⟨"\u3000+0065535\n", true, 2, by rfl, port⟩
    · rfl
    · exact ⟨"18446744073709551615\t", false, 0, by rfl, retry⟩
    · exact ⟨" yEs", ['y', 'E', 's'], by rfl, relay, .yes listed cased⟩
  obtain ⟨_, _, restored, _, dropped⟩ := read_restores_rendered config nonempty
  have textless : ∀ text, Utf8.bytesOf text ≠ [0xFF] := by
    intro text same
    have read := Utf8.readStrict?_eq_some_iff.mpr same.symm
    cases read
  refine ⟨nonempty, renders, restored environment renders, ?_⟩
  rw [dropped damaged pathVariable [0xFF] (by decide) (by rfl) textless]
  rfl

end PipeCast.Config
