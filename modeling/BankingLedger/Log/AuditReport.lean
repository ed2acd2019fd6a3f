import BankingLedger.Log.TamperEvidence

set_option autoImplicit false

namespace BankingLedger

open HashLinked HashLink ByteText

section Code

def HashChain.queryByTime (chain : HashChain) (fromTime toTime : Timestamp) : List HashLink :=
  chain.blocks.filter fun b => fromTime.nanos ≤ b.timestamp.nanos ∧ b.timestamp.nanos ≤ toTime.nanos

-- `none` where a slice ends inside of a character or behind the text, which panics.
def shownData (block : HashLink) : Option String :=
  if 60 < (utf8 block.data).length then (sliceTo block.data 57).map (· ++ "...") else some block.data

def auditLine (block : HashLink) : Option String := do
  let hash ← sliceTo block.hash 12
  let data ← shownData block
  let previous ← sliceTo block.previousHash 12
  return "[" ++ toString block.index ++ "] " ++ hash ++ " | data: " ++ data ++ " | prev: " ++ previous ++ "\n"

def auditHeader (hashing : Hashing) (fromTime toTime : Timestamp) (blocks : List HashLink) : String :=
  "=== AUDIT REPORT ===\nPeriod: " ++ hashing.toRfc3339 fromTime ++ " → " ++ hashing.toRfc3339 toTime ++
    "\nBlocks: " ++ toString blocks.length ++ "\n\n"

-- `{:?}` of a vector of numbers.
def debugNumbers (numbers : List UInt64) : String :=
  "[" ++ ", ".intercalate (numbers.map toString) ++ "]"

def auditVerdict (verdict : Bool × List UInt64) : String :=
  "\nIntegrity: " ++ (if verdict.1 then "✅ VERIFIED" else "❌ TAMPERED") ++ " | Tampered: " ++
    debugNumbers verdict.2 ++ "\n"

def HashChain.auditReport (hashing : Hashing) (chain : HashChain) (fromTime toTime : Timestamp) :
    Option String := do
  let blocks := chain.queryByTime fromTime toTime
  let report ← blocks.foldlM (fun report block => (auditLine block).map (report ++ ·))
    (auditHeader hashing fromTime toTime blocks)
  return report ++ auditVerdict (chain.verifyChain hashing)

end Code

section Lines

structure HashText (hash : String) : Prop where
  long : 12 ≤ hash.toList.length
  ascii : ∀ c ∈ hash.toList, c.utf8Size = 1
  single : '\n' ∉ hash.toList

def firstTwelve (hash : String) : String := String.ofList (hash.toList.take 12)

def lineOf (block : HashLink) (data : String) : String :=
  "[" ++ toString block.index ++ "] " ++ firstTwelve block.hash ++ " | data: " ++ data ++ " | prev: " ++
    firstTwelve block.previousHash

def linesOf (blocks : List HashLink) (shown : List String) : List String :=
  List.zipWith lineOf blocks shown

def printed (lines : List String) : String := String.join (lines.map (· ++ "\n"))

def Cuttable (block : HashLink) : Prop := 60 < (utf8 block.data).length → Boundary block.data 57

-- A line break in the data comes only behind the cut.
def Unbroken (block : HashLink) : Prop := ∀ front back, block.data.toList = front ++ '\n' :: back →
  60 < (utf8 block.data).length ∧ 57 ≤ width front

variable {block : HashLink} {blocks : List HashLink} {text : String}

theorem isSome_shownData : (shownData block).isSome = true ↔ Cuttable block := by
  rw [shownData, Cuttable]
  split
  next long => simp [long, isSome_sliceTo]
  next short => simp [short]

theorem newline_of_shownData (shown : shownData block = some text) :
    '\n' ∉ text.toList ↔ Unbroken block := by
  rw [shownData] at shown
  split at shown
  next long =>
    obtain ⟨_, slice, rfl⟩ := Option.map_eq_some_iff.mp shown
    obtain ⟨front, cut, rfl⟩ := Option.map_eq_some_iff.mp slice
    have inside : '\n' ∈ (String.ofList front ++ "...").toList ↔ '\n' ∈ front := by simp
    rw [inside, mem_takeBytes_iff cut, Unbroken]
    simp [long]
  next short =>
    obtain rfl := Option.some.inj shown
    rw [Unbroken, List.mem_iff_append]
    simp [short]

theorem sliceTo_of_hashText {hash : String} (hex : HashText hash) :
    sliceTo hash 12 = some (firstTwelve hash) := sliceTo_of_ascii hex.ascii hex.long

theorem auditLine_eq (hash : HashText block.hash) (previous : HashText block.previousHash) :
    auditLine block = (shownData block).map fun data => lineOf block data ++ "\n" := by
  rw [auditLine, sliceTo_of_hashText hash, sliceTo_of_hashText previous]
  cases shownData block <;> rfl

theorem toDigits_single (n : Nat) : '\n' ∉ (toString n).toList := by
  intro member
  rw [Nat.toString_eq_repr, Nat.toList_repr] at member
  exact absurd (Nat.isDigit_of_mem_toDigits (by decide) (by decide) member) (by decide)

theorem firstTwelve_single {hash : String} (hex : HashText hash) : '\n' ∉ (firstTwelve hash).toList := by
  rw [firstTwelve, String.toList_ofList]
  exact fun member => hex.single (List.mem_of_mem_take member)

-- The data alone can break the line of a block.
theorem count_lineOf (hash : HashText block.hash) (previous : HashText block.previousHash) :
    (lineOf block text).toList.count '\n' = text.toList.count '\n' := by
  have number : (toString block.index).toList.count '\n' = 0 :=
    List.count_eq_zero.mpr (toDigits_single block.index.toNat)
  have first := List.count_eq_zero.mpr (firstTwelve_single hash)
  have second := List.count_eq_zero.mpr (firstTwelve_single previous)
  simp [lineOf, List.count_append, number, first, second]

def newlines (texts : List String) : Nat := (texts.map fun text => text.toList.count '\n').sum

theorem newlines_eq_zero {texts : List String} : newlines texts = 0 ↔ ∀ text ∈ texts, '\n' ∉ text.toList := by
  rw [newlines, List.sum_eq_zero_iff_forall_eq_nat, List.forall_mem_map]
  simp only [List.count_eq_zero]

theorem count_printed (lines : List String) :
    (printed lines).toList.count '\n' = newlines lines + lines.length := by
  induction lines with
  | nil => rfl
  | cons line rest ih =>
    simp only [printed, newlines, List.map_cons, String.join_cons, String.toList_append,
      List.count_append, List.sum_cons, List.length_cons] at ih ⊢
    have own : "\n".toList.count '\n' = 1 := by decide
    omega

theorem length_linesOf {shown : List String} (each : shown.length = blocks.length) :
    (linesOf blocks shown).length = blocks.length := by
  simp [linesOf, each]

def Hexed (blocks : List HashLink) : Prop := ∀ b ∈ blocks, HashText b.hash ∧ HashText b.previousHash

theorem newlines_linesOf (hexed : Hexed blocks) {shown : List String}
    (each : shown.length = blocks.length) : newlines (linesOf blocks shown) = newlines shown := by
  induction blocks generalizing shown with
  | nil => simp [linesOf, List.eq_nil_of_length_eq_zero each]
  | cons b rest ih =>
    obtain ⟨data, others, rfl⟩ := List.exists_cons_of_length_eq_add_one each
    obtain ⟨first, later⟩ := List.forall_mem_cons.mp hexed
    have tail := ih later (Nat.succ.inj each)
    simp only [newlines, linesOf, List.zipWith_cons_cons, List.map_cons, List.sum_cons] at tail ⊢
    rw [count_lineOf first.1 first.2, tail]

def Shows (blocks : List HashLink) (shown : List String) : Prop :=
  List.Forall₂ (fun b data => shownData b = some data) blocks shown

theorem exists_shows_iff : (∃ shown, Shows blocks shown) ↔ ∀ b ∈ blocks, Cuttable b := by
  constructor
  case mp =>
    intro cut b member
    obtain ⟨shown, shows⟩ := cut
    induction shows with
    | nil => simp at member
    | cons first _ ih =>
      rcases List.mem_cons.mp member with rfl | later
      next => exact isSome_shownData.mp (Option.isSome_of_eq_some first)
      next => exact ih later
  case mpr =>
    intro cut
    induction blocks with
    | nil => exact ⟨[], .nil⟩
    | cons b rest ih =>
      rw [List.forall_mem_cons] at cut
      obtain ⟨data, first⟩ := Option.isSome_iff_exists.mp (isSome_shownData.mpr cut.1)
      obtain ⟨shown, later⟩ := ih cut.2
      exact ⟨data :: shown, .cons first later⟩

theorem Shows.newlines_iff {shown : List String} (shows : Shows blocks shown) :
    newlines shown = 0 ↔ ∀ b ∈ blocks, Unbroken b := by
  rw [newlines_eq_zero]
  induction shows with
  | nil => simp
  | cons first _ ih => rw [List.forall_mem_cons, List.forall_mem_cons, newline_of_shownData first, ih]

theorem foldlM_auditLine (hexed : Hexed blocks) {report whole : String} :
    blocks.foldlM (fun report block => (auditLine block).map (report ++ ·)) report = some whole ↔
      ∃ shown, Shows blocks shown ∧ whole = report ++ printed (linesOf blocks shown) := by
  induction blocks generalizing report with
  | nil => simp [Shows, linesOf, printed, eq_comm]
  | cons b rest ih =>
    obtain ⟨first, later⟩ := List.forall_mem_cons.mp hexed
    rw [List.foldlM_cons, auditLine_eq first.1 first.2]
    simp only [Option.bind_eq_bind, Option.bind_eq_some_iff, Option.map_eq_some_iff, ih later]
    constructor
    case mp =>
      rintro ⟨_, ⟨_, ⟨data, own, rfl⟩, rfl⟩, shown, shows, rfl⟩
      exact ⟨data :: shown, .cons own shows, by simp [linesOf, printed, String.append_assoc]⟩
    case mpr =>
      rintro ⟨_, shows, rfl⟩
      cases shows with
      | cons own shows =>
        exact ⟨_, ⟨_, ⟨_, own, rfl⟩, rfl⟩, _, shows, by simp [linesOf, printed, String.append_assoc]⟩

end Lines

section Report

structure Reports (hashing : Hashing) (chain : HashChain) (fromTime toTime : Timestamp)
    (shown : List String) : Prop where
  each : shown.length = (chain.queryByTime fromTime toTime).length
  whole : chain.auditReport hashing fromTime toTime =
    some (auditHeader hashing fromTime toTime (chain.queryByTime fromTime toTime) ++
      printed (linesOf (chain.queryByTime fromTime toTime) shown) ++ auditVerdict (chain.verifyChain hashing))

variable {hashing : Hashing} {start : Timestamp} {chain : HashChain} {fromTime toTime : Timestamp}
  {sha256 : List UInt8 → Vector UInt8 32} {toRfc3339 : Timestamp → String}

theorem auditReport_eq_some_iff (hexed : Hexed (chain.queryByTime fromTime toTime)) {report : String} :
    chain.auditReport hashing fromTime toTime = some report ↔
      ∃ shown, Shows (chain.queryByTime fromTime toTime) shown ∧
        report = auditHeader hashing fromTime toTime (chain.queryByTime fromTime toTime) ++
          printed (linesOf (chain.queryByTime fromTime toTime) shown) ++
          auditVerdict (chain.verifyChain hashing) := by
  rw [HashChain.auditReport]
  simp only [Option.bind_eq_bind, Option.bind_eq_some_iff, foldlM_auditLine hexed]
  constructor
  case mp =>
    rintro ⟨_, ⟨shown, shows, rfl⟩, last⟩
    exact ⟨shown, shows, (Option.some.inj last).symm⟩
  case mpr =>
    rintro ⟨shown, shows, rfl⟩
    exact ⟨_, ⟨shown, shows, rfl⟩, rfl⟩

theorem Shows.reports {shown : List String} (hexed : Hexed (chain.queryByTime fromTime toTime))
    (shows : Shows (chain.queryByTime fromTime toTime) shown) :
    Reports hashing chain fromTime toTime shown where
  each := shows.length_eq.symm
  whole := (auditReport_eq_some_iff hexed).mpr ⟨shown, shows, rfl⟩

theorem hashText_encode (digest : Vector UInt8 32) : HashText (HexText.encode digest.toList) where
  long := by
    rw [HexText.length_encode, Vector.length_toList]
    decide
  ascii _ member := HexText.utf8Size_of_mem_encode member
  single member := by
    have digits : ∀ d < 16, Nat.digitChar d ≠ '\n' := by decide
    obtain ⟨d, at_d, newline⟩ := HexText.digit_of_mem_encode member
    exact digits d at_d newline.symm

theorem hashText_zeros : HashText zeros where
  long := by
    rw [length_zeros]
    decide
  ascii _ member := utf8Size_of_mem_zeros member
  single member := absurd (eq_of_mem_zeros member) (by decide)

theorem Reachable.hexed (reached : Reachable (.ofSha256 sha256 toRfc3339) start chain) :
    Hexed (chain.queryByTime fromTime toTime) := by
  obtain ⟨linked, sealedAll⟩ := Scheme.chained_iff_sealed.mp reached.sound.chained
  have hashes : ∀ b ∈ chain.blocks, HashText b.hash := by
    intro b member
    have own : HexText.encode (sha256 (b.preimage toRfc3339)).toList = b.hash := sealedAll b member
    rw [← own]
    exact hashText_encode _
  have previous := Scheme.previous_of_linked linked hashText_zeros hashes
  intro b member
  have inside := List.mem_of_mem_filter member
  exact ⟨hashes b inside, previous b inside⟩

/-- The report is there exactly if every cut is between two characters, and each of its lines is one line of
text exactly if no line break of the data is in what it shows. -/
theorem audit_report_iff (sha256 : List UInt8 → Vector UInt8 32) (toRfc3339 : Timestamp → String)
    (start : Timestamp) (chain : HashChain) (fromTime toTime : Timestamp)
    (reached : Reachable (.ofSha256 sha256 toRfc3339) start chain) :
    ((∃ shown, Reports (.ofSha256 sha256 toRfc3339) chain fromTime toTime shown) ↔
        ∀ b ∈ chain.queryByTime fromTime toTime, Cuttable b) ∧
      ((∃ shown, Reports (.ofSha256 sha256 toRfc3339) chain fromTime toTime shown ∧
          ∀ line ∈ linesOf (chain.queryByTime fromTime toTime) shown, '\n' ∉ line.toList) ↔
        ∀ b ∈ chain.queryByTime fromTime toTime, Cuttable b ∧ Unbroken b) := by
  have hexed : Hexed (chain.queryByTime fromTime toTime) := reached.hexed
  constructor
  case left =>
    rw [← exists_shows_iff]
    constructor
    case mp =>
      intro written
      obtain ⟨_, reports⟩ := written
      obtain ⟨shown, shows, _⟩ := (auditReport_eq_some_iff hexed).mp reports.whole
      exact ⟨shown, shows⟩
    case mpr => exact fun ⟨shown, shows⟩ => ⟨shown, shows.reports hexed⟩
  case right =>
    simp only [← newlines_eq_zero, forall_and, ← exists_shows_iff]
    constructor
    case mp =>
      intro written
      obtain ⟨lines, reports, single⟩ := written
      obtain ⟨shown, shows, same⟩ := (auditReport_eq_some_iff hexed).mp reports.whole
      refine ⟨⟨shown, shows⟩, shows.newlines_iff.mp ?_⟩
      -- Both ways to write the report have as many line breaks.
      have texts := congrArg (fun report : String => report.toList.count '\n') same
      simp only [String.toList_append, List.count_append, count_printed, single,
        newlines_linesOf hexed shows.length_eq.symm, length_linesOf reports.each,
        length_linesOf shows.length_eq.symm] at texts
      omega
    case mpr =>
      intro fine
      obtain ⟨⟨shown, shows⟩, unbroken⟩ := fine
      refine ⟨shown, shows.reports hexed, ?_⟩
      rw [newlines_linesOf hexed shows.length_eq.symm]
      exact shows.newlines_iff.mpr unbroken

end Report

namespace AuditSample

-- Fifty-six letters, so that the accented one takes the bytes 56 and 57.
def accented : String := String.ofList (List.replicate 56 'a' ++ "été au lac".toList)

def sha256 (_ : List UInt8) : Vector UInt8 32 := Vector.replicate 32 0

def epoch (_ : Timestamp) : String := "1970-01-01T00:00:00+00:00"

def hashing : Hashing := .ofSha256 sha256 epoch

def chain : HashChain := ((HashChain.new hashing ⟨0⟩).append hashing ⟨0⟩ accented).2

theorem chain_reachable : Reachable (.ofSha256 sha256 epoch) ⟨0⟩ chain :=
  .append .new (by simp [HashChain.new, isizeMax]) ⟨0⟩ accented

theorem accented_cut : ∃ b ∈ chain.queryByTime ⟨0⟩ ⟨0⟩, ¬Cuttable b := by
  refine ⟨HashLink.next hashing ⟨0⟩ (.genesis hashing ⟨0⟩ "GENESIS_BLOCK") accented, ?_, ?_⟩
  next => simp [HashChain.queryByTime, chain, HashChain.append, HashChain.new, HashLink.next, HashLink.genesis]
  next =>
    rw [← isSome_shownData]
    decide +kernel

end AuditSample

open AuditSample

theorem audit_report_panics :
    Reachable (.ofSha256 sha256 epoch) ⟨0⟩ AuditSample.chain ∧
      AuditSample.chain.auditReport AuditSample.hashing ⟨0⟩ ⟨0⟩ = none := by
  refine ⟨chain_reachable, Option.eq_none_iff_forall_ne_some.mpr ?_⟩
  intro report written
  obtain ⟨shown, shows, _⟩ := (auditReport_eq_some_iff chain_reachable.hexed).mp written
  obtain ⟨b, member, cut⟩ := accented_cut
  exact cut (exists_shows_iff.mp ⟨shown, shows⟩ b member)

theorem audit_report_iff_accented :
    ((∃ shown, Reports (.ofSha256 sha256 epoch) AuditSample.chain ⟨0⟩ ⟨0⟩ shown) ↔
        ∀ b ∈ AuditSample.chain.queryByTime ⟨0⟩ ⟨0⟩, Cuttable b) ∧
      ((∃ shown, Reports (.ofSha256 sha256 epoch) AuditSample.chain ⟨0⟩ ⟨0⟩ shown ∧
          ∀ line ∈ linesOf (AuditSample.chain.queryByTime ⟨0⟩ ⟨0⟩) shown, '\n' ∉ line.toList) ↔
        ∀ b ∈ AuditSample.chain.queryByTime ⟨0⟩ ⟨0⟩, Cuttable b ∧ Unbroken b) :=
  audit_report_iff sha256 epoch ⟨0⟩ AuditSample.chain ⟨0⟩ ⟨0⟩ chain_reachable

end BankingLedger
