import FleetControl.Settings

/-!
# Counts in settings

A whole number in settings is looked at twice: as a signed word, whose sign
tells whether it may be a count, and as an unsigned word, which is the count.
`Settings.ofWords` is this reading, and the counts of settings come from it.

Both words are the number itself as long as it fits a signed word.  A larger one
has a negative signed word and counts as none, so the counts that settings give
are exactly those that fit.
-/

namespace FleetControl

namespace Json

/-- A whole number of either kind as a signed word, which wraps around. -/
def signedWord? : Json → Option Int64
  | .unsigned n => some n.toInt64
  | .signed n => some n
  | _ => none

/-- A whole number of either kind as an unsigned word, which wraps around. -/
def unsignedWord? : Json → Option UInt64
  | .unsigned n => some n
  | .signed n => some n.toUInt64
  | _ => none

end Json

namespace Settings

/-! ## Counts from words -/

/-- The count that is read from a value: the unsigned word of a whole number,
unless its signed word is negative. -/
def ofWords (value? : Option Json) (default : Nat) : Nat :=
  match value?.bind Json.signedWord?, value?.bind Json.unsignedWord? with
  | some signed, some unsigned => if signed < 0 then default else unsigned.toNat
  | _, _ => default

theorem toInt64_neg_iff (n : UInt64) :
    n.toInt64 < 0 ↔ Int64.maxValue.toInt < n.toNat := by
  have htoInt : n.toInt64.toInt = n.toBitVec.toInt := rfl
  have htoNat : n.toBitVec.toNat = n.toNat := rfl
  have hmax : Int64.maxValue.toInt = 9223372036854775807 := rfl
  have hzero : Int64.toInt 0 = 0 := rfl
  have hlt := n.toNat_lt
  rw [Int64.lt_iff_toInt_lt, htoInt, BitVec.toInt_eq_toNat_cond, htoNat, hmax,
    hzero]
  split <;> omega

theorem toInt_le_maxValue (n : Int64) : n.toInt ≤ Int64.maxValue.toInt := by
  have hmax : Int64.maxValue.toInt = 9223372036854775807 := rfl
  have hlt := n.toInt_lt
  omega

/-- A whole number is read as the count that it is, if it fits a signed word and
is not negative. -/
theorem ofWords_of_integer {value? : Option Json} {n : Int}
    (h : value?.bind Json.integer? = some n) (default : Nat) :
    ofWords value? default =
      if 0 ≤ n ∧ n ≤ Int64.maxValue.toInt then n.toNat else default := by
  obtain ⟨value, rfl, hvalue⟩ := Option.bind_eq_some_iff.mp h
  cases value with
  | unsigned word =>
    cases hvalue
    have hnot : 0 ≤ (word.toNat : Int) ∧
      (word.toNat : Int) ≤ Int64.maxValue.toInt ↔ ¬ word.toInt64 < 0 := by
      rw [toInt64_neg_iff]
      omega
    simp only [hnot, ite_not]
    rfl
  | signed word =>
    cases hvalue
    have hnot : 0 ≤ word.toInt ∧ word.toInt ≤ Int64.maxValue.toInt ↔
        ¬ word < 0 := by
      have hle := toInt_le_maxValue word
      have hzero : Int64.toInt 0 = 0 := rfl
      rw [Int64.lt_iff_toInt_lt, hzero]
      omega
    simp only [hnot, ite_not]
    by_cases hneg : word < 0
    · rw [if_pos hneg]
      exact if_pos hneg
    · rw [if_neg hneg]
      exact (if_neg hneg).trans
        (Int64.toNat_toUInt64_of_le (Int64.not_lt.mp hneg))
  | _ => cases hvalue

theorem ofWords_of_none {value? : Option Json}
    (h : value?.bind Json.integer? = none)
    (default : Nat) : ofWords value? default = default := by
  cases value? with
  | none => rfl
  | some value =>
    cases value with
    | unsigned word => cases h
    | signed word => cases h
    | _ => rfl

/-- The counts of settings are those that are read from words. -/
theorem countAt_eq_ofWords (settings : Settings) (key : String)
    (default : Nat) :
    settings.countAt key default =
      ofWords (settings.entries.get? (text key)) default := by
  unfold countAt
  split
  · next n hn => rw [ofWords_of_integer hn]
  · next hnone => rw [ofWords_of_none hnone]

/-! ## What the settings give -/

/-- The entries hold a whole number under a key. -/
def Holds (entries : Dict Json) (key : String) (n : Int) : Prop :=
  (entries.get? (text key)).bind Json.integer? = some n

/-- A count that settings give: its key, its default, and what is given. -/
structure Count where
  key : String
  default : Nat
  get : Settings → Nat

/-- The counts that have no bound of their own. -/
def counts : List Count :=
  [⟨"max_log_buffer", 200, maxLogBuffer⟩, ⟨"max_robots", 10, maxRobots⟩,
    ⟨"max_containers", 10, maxContainers⟩]

variable {settings : Settings} {key : String}

theorem get_eq_countAt {count : Count} (h : count ∈ counts)
    (settings : Settings) :
    count.get settings = settings.countAt count.key count.default := by
  simp only [counts, List.mem_cons, List.not_mem_nil, or_false] at h
  rcases h with rfl | rfl | rfl <;> rfl

theorem default_le {count : Count} (h : count ∈ counts) :
    count.default ≤ 200 := by
  simp only [counts, List.mem_cons, List.not_mem_nil, or_false] at h
  rcases h with rfl | rfl | rfl <;> decide

theorem countAt_of_holds {n : Nat} (h : Holds settings.entries key n)
    (default : Nat) :
    settings.countAt key default =
      if (n : Int) ≤ Int64.maxValue.toInt then n else default := by
  rw [countAt_eq_ofWords, ofWords_of_integer h]
  simp

theorem countAt_of_not_holds (h : ∀ n : Nat, ¬ Holds settings.entries key n)
    (default : Nat) :
    settings.countAt key default = default := by
  rw [countAt_eq_ofWords]
  cases hinteger : (settings.entries.get? (text key)).bind Json.integer? with
  | none => exact ofWords_of_none hinteger default
  | some n =>
    rw [ofWords_of_integer hinteger, if_neg]
    rintro ⟨hnonneg, -⟩
    obtain ⟨m, rfl⟩ := Int.eq_ofNat_of_zero_le hnonneg
    exact h m hinteger

theorem robotKeyBytes_of_holds {n : Nat}
    (h : Holds settings.entries "robot_key_bytes" n) :
    settings.robotKeyBytes =
      if n = 0 ∨ Int64.maxValue.toInt < n then 16 else min n keyBytesLimit := by
  simp only [robotKeyBytes, countAt_of_holds h]
  by_cases hfits : (n : Int) ≤ Int64.maxValue.toInt
  · simp [hfits, Int.not_lt.mpr hfits]
  · simp [hfits, Int.not_le.mp hfits, keyBytesLimit]

theorem robotKeyBytes_of_not_holds
    (h : ∀ n : Nat, ¬ Holds settings.entries "robot_key_bytes" n) :
    settings.robotKeyBytes = 16 := by
  rw [robotKeyBytes, countAt_of_not_holds h]
  rfl

theorem robotKeyBytes_le (settings : Settings) :
    settings.robotKeyBytes ≤ keyBytesLimit := by
  simp only [robotKeyBytes, keyBytesLimit]
  split <;> omega

/-- What settings give that have been read from a file.  A whole number that is
not negative is given as a count exactly if it fits a signed word; anything else
leaves the default.  So it is with the length of keys, where zero asks for the
default and nothing beyond the limit is given; up to the largest signed word,
longer keys are given where longer ones are asked for. -/
theorem counts_of_settings {files : FileTree} {path : Text}
    {entries : Dict Json} (hpath : path ≠ [])
    (hread : readObject files path = .ok entries) :
    let settings := (load files path).1
    (∀ count ∈ counts,
      (∀ n : Nat, Holds entries count.key n →
        (count.get settings = n ↔ (n : Int) ≤ Int64.maxValue.toInt)) ∧
      ((∀ n : Nat, ¬ Holds entries count.key n) →
        count.get settings = count.default)) ∧
    (∀ n : Nat, Holds entries "robot_key_bytes" n →
      (settings.robotKeyBytes = (if n = 0 then 16 else min n 1024) ↔
        (n : Int) ≤ Int64.maxValue.toInt)) ∧
    ((∀ n : Nat, ¬ Holds entries "robot_key_bytes" n) →
      settings.robotKeyBytes = 16) ∧ settings.robotKeyBytes ≤ 1024 ∧
    ∀ (other : Settings) (m n : Nat), Holds entries "robot_key_bytes" m →
      Holds other.entries "robot_key_bytes" n → 1 ≤ m → m ≤ n →
        (n : Int) ≤ Int64.maxValue.toInt →
        settings.robotKeyBytes ≤ other.robotKeyBytes := by
  intro settings
  have hsettings : settings.entries = entries := by
    have hnonempty : ¬ path.isEmpty = true := by simpa using hpath
    simp only [settings, load, if_neg hnonempty, hread]
  rw [← hsettings]
  refine ⟨?_, ?_, robotKeyBytes_of_not_holds, robotKeyBytes_le settings, ?_⟩
  · intro count hcount
    rw [get_eq_countAt hcount]
    refine ⟨?_, fun hnone => countAt_of_not_holds hnone count.default⟩
    intro n hn
    have hdefault := default_le hcount
    have hmax : Int64.maxValue.toInt = 9223372036854775807 := rfl
    rw [countAt_of_holds hn]
    split <;> omega
  · intro n hn
    have hmax : Int64.maxValue.toInt = 9223372036854775807 := rfl
    rw [robotKeyBytes_of_holds hn, keyBytesLimit]
    split <;> split <;> omega
  · intro other m n hm hn hpos hle hfits
    rw [robotKeyBytes_of_holds hm, robotKeyBytes_of_holds hn, if_neg (by omega),
      if_neg (by omega)]
    omega

/-- A folder with settings in a file. -/
def withSettings (content : String) : FileTree :=
  ⟨[text "home"], [([text "home"], .folder),
    ([text "home", text "settings"], .file (text content))]⟩

/-- The largest count, and keys that are longer than the limit. -/
theorem counts_of_settings_largest :
    let files := withSettings
      "\x7b\"max_robots\": 9223372036854775807, \"robot_key_bytes\": 4294967296000\x7d"
    let settings := (load files (text "settings")).1
    readObject files (text "settings") = .ok settings.entries ∧
      settings.maxRobots = 9223372036854775807 ∧
      settings.robotKeyBytes = 1024 := by
  intro files settings
  have hread : readObject files (text "settings") = .ok
      [(text "max_robots", .unsigned 9223372036854775807),
        (text "robot_key_bytes", .unsigned 4294967296000)] :=
    rfl
  obtain ⟨hcounts, hkeys, -⟩ := counts_of_settings (by decide) hread
  have hrobots : ⟨"max_robots", 10, maxRobots⟩ ∈ counts := by simp [counts]
  exact ⟨hread, ((hcounts _ hrobots).1 9223372036854775807 rfl).mpr (by decide),
    (hkeys 4294967296000 rfl).mpr (by decide)⟩

/-- The number after the largest signed word is no count: the default is given
in its place, and the default length of keys instead of the limit. -/
theorem counts_lost_of_large :
    let files := withSettings
      "\x7b\"max_robots\": 9223372036854775808, \"robot_key_bytes\": 9223372036854775808\x7d"
    let settings := (load files (text "settings")).1
    readObject files (text "settings") = .ok settings.entries ∧
      Holds settings.entries "max_robots" 9223372036854775808 ∧
      settings.maxRobots = 10 ∧
      Holds settings.entries "robot_key_bytes" 9223372036854775808 ∧
      settings.robotKeyBytes = 16 := by
  exact ⟨rfl, rfl, rfl, rfl, rfl⟩

end Settings
end FleetControl
