import Mathlib.Data.Int.Interval
import Mathlib.Data.Set.Card
import TabularModel.Proofs.Filter.Increments
import TabularModel.Proofs.Sql.Moments

/-!
# Relative dates

A condition on a relative date is converted exactly if its value is a numeral whose count
can be expressed: every moment in a row filter is moved by a number of 32 bits. The rows of
the last periods and those of the next ones lie in two windows that meet at the start of
the next period.
-/

set_option autoImplicit false

namespace TabularModel

/-! ## Numerals -/

namespace Decimal

/-- A decimal integer with an optional sign. -/
inductive Denotes : Text -> Int -> Prop where
  | unsigned {digits : Text} (nonempty : digits ≠ []) (each : ∀ c ∈ digits, isDigit c = true) :
      Denotes digits (value digits)
  | positive {digits : Text} (nonempty : digits ≠ []) (each : ∀ c ∈ digits, isDigit c = true) :
      Denotes ('+' :: digits) (value digits)
  | negative {digits : Text} (nonempty : digits ≠ []) (each : ∀ c ∈ digits, isDigit c = true) :
      Denotes ('-' :: digits) (-(value digits : Int))

theorem natural?_eq_some_iff {digits : Text} {n : Nat} :
    natural? digits = some n ↔
      digits ≠ [] ∧ (∀ c ∈ digits, isDigit c = true) ∧ value digits = n := by
  simp only [natural?, Option.ite_none_right_eq_some, List.all_eq_true, Option.some.injEq,
    and_assoc]

/-- What is read as an integer is a decimal integer, and each is read. -/
theorem integer?_eq_some_iff {text : Text} {n : Int} :
    integer? text = some n ↔ Denotes text n := by
  constructor
  · intro read
    unfold integer? at read
    split at read
    all_goals
      obtain ⟨magnitude, found, rfl⟩ := Option.map_eq_some_iff.mp read
      obtain ⟨natural, found, same⟩ := Option.bind_eq_some_iff.mp found
      obtain ⟨nonempty, each, rfl⟩ := natural?_eq_some_iff.mp found
      cases same
    · exact .negative nonempty each
    · exact .positive nonempty each
    · exact .unsigned nonempty each
  · intro denotes
    cases denotes with
    | unsigned nonempty each =>
        have isSign (sign : Char) (rest : Text) (same : text = sign :: rest) :
            isDigit sign = true := each sign (same ▸ List.mem_cons_self)
        have found := natural?_eq_some_iff.mpr ⟨nonempty, each, rfl⟩
        unfold integer?
        split
        · exact absurd (isSign '-' _ rfl) (by decide)
        · exact absurd (isSign '+' _ rfl) (by decide)
        · rw [found]
          rfl
    | positive nonempty each =>
        rw [integer?, natural?_eq_some_iff.mpr ⟨nonempty, each, rfl⟩]
        rfl
    | negative nonempty each =>
        rw [integer?, natural?_eq_some_iff.mpr ⟨nonempty, each, rfl⟩]
        rfl

end Decimal

namespace Filter

open Sql (Chronology Expression Predicate)

/-! ## Moments in local time -/

namespace LocalTime

/-- A moment in local time. -/
def shift (time : LocalTime) (dates : Chronology) (moment : dates.Moment) : dates.Moment :=
  if time.minutes % 60 = 0 then dates.add .hour (time.minutes / 60) moment
  else dates.add .minute time.minutes moment

section

variable {dates : Chronology} {row : Text -> Text -> Option dates.Moment} {now : dates.Moment}
variable (time : LocalTime)

theorem moment?_localise {expression : Expression} {moment : dates.Moment}
    (stands : expression.moment? dates row now = some moment) :
    (time.localise expression).moment? dates row now = some (time.shift dates moment) := by
  rw [localise, shift]
  split
  · rw [Expression.moment?, stands, Option.map_some]
  · rw [Expression.moment?, stands, Option.map_some]

theorem moment?_now : time.now.moment? dates row now = some (time.shift dates now) :=
  time.moment?_localise rfl

/-- The start of the present period stands for the boundary that is not moved. -/
theorem moment?_boundary (unit : DateUnit) (count : Int) :
    (time.boundary unit count).moment? dates row now =
      some (dates.boundary unit.part (time.shift dates now) count) := by
  have start : (time.periodStart unit).moment? dates row now =
      some (dates.start unit.part (time.shift dates now)) := by
    rw [periodStart, Expression.moment?, time.moment?_now, Option.map_some]
  rw [boundary]
  split
  · next unmoved => rw [start, unmoved, dates.boundary_zero]
  · rw [Expression.moment?, start, Option.map_some, Chronology.boundary]

theorem holds_within {column lower upper : Expression} {moment low high : dates.Moment}
    (isMoment : column.moment? dates row now = some moment)
    (isLow : lower.moment? dates row now = some low)
    (isHigh : upper.moment? dates row now = some high) :
    (time.within column lower upper).Holds dates row now ↔
      low ≤ time.shift dates moment ∧ time.shift dates moment < high := by
  have shifted := time.moment?_localise isMoment
  rw [within, Predicate.holds_pair, Predicate.holds_compare _ shifted isLow,
    Predicate.holds_compare _ shifted isHigh]
  rfl

end

end LocalTime

/-! ## Relative dates -/

/-- The operators that take a count of periods. -/
inductive RelativeDate where
  | window (direction : Direction) (unit : DateUnit)
  | olderThan (unit : DateUnit)
deriving DecidableEq, Repr

namespace RelativeDate

def operator : RelativeDate -> ConditionOperator
  | .window direction unit => .window direction unit
  | .olderThan unit => .olderThan unit

/-- The counts that `DATEADD` can express. The next periods end one period later than
there are periods. -/
def Admits (count : Int) : RelativeDate -> Prop
  | .window .past _ => 0 ≤ count ∧ count ≤ 2147483647
  | .window .future _ => 0 ≤ count ∧ count ≤ 2147483647 ∧ count + 1 ≤ 2147483647
  | .olderThan _ => 0 ≤ count ∧ count ≤ 2147483647

def predicate (time : LocalTime) (column : Expression) (count : Int) : RelativeDate -> Predicate
  | .window direction unit => time.window column unit count direction
  | .olderThan unit => time.olderThan column unit count

/-- The increment that a count leads to. -/
def increment (count : Int) : RelativeDate -> Int
  | .window direction _ => LocalTime.farBound count direction
  | .olderThan _ => -count

theorem admits_iff (relative : RelativeDate) (count : Int) :
    relative.Admits count ↔
      (0 ≤ count ∧ count ≤ Condition.greatestCount) ∧
        Decimal.fits32 (relative.increment count) = true := by
  rw [Condition.greatestCount, Decimal.fits32_iff]
  cases relative with
  | window direction unit =>
      cases direction with
      | past =>
          simp only [Admits, increment, LocalTime.farBound]
          omega
      | future =>
          simp only [Admits, increment, LocalTime.farBound]
          omega
  | olderThan unit =>
      simp only [Admits, increment]
      omega

/-- The moments that a count of periods reaches, as seen from a present moment. -/
def Reaches (dates : Chronology) (present : dates.Moment) (count : Int) (moment : dates.Moment) :
    RelativeDate -> Prop
  | .window .past unit => dates.IsWithin unit.part present (1 - count) 1 moment
  | .window .future unit => dates.IsWithin unit.part present 1 (1 + count) moment
  | .olderThan unit => moment < dates.add unit.part (-count) present

/-- A row is kept exactly if its moment is reached in local time. -/
theorem holds_predicate (relative : RelativeDate) {dates : Chronology}
    {row : Text -> Text -> Option dates.Moment} {now moment : dates.Moment} (time : LocalTime)
    {column : Expression} (isMoment : column.moment? dates row now = some moment) (count : Int) :
    (relative.predicate time column count).Holds dates row now ↔
      relative.Reaches dates (time.shift dates now) count (time.shift dates moment) := by
  have bound (unit : DateUnit) (moved : Int) :
      (time.boundary unit moved).moment? dates row now =
        some (dates.boundary unit.part (time.shift dates now) moved) :=
    time.moment?_boundary unit moved
  cases relative with
  | window direction unit =>
      cases direction with
      | past => exact time.holds_within isMoment (bound unit (1 - count)) (bound unit 1)
      | future => exact time.holds_within isMoment (bound unit 1) (bound unit (1 + count))
  | olderThan unit =>
      have ago : (time.nowPlus unit (-count)).moment? dates row now =
          some (dates.add unit.part (-count) (time.shift dates now)) := by
        rw [LocalTime.nowPlus, Expression.moment?, time.moment?_now, Option.map_some]
      exact Predicate.holds_compare .less (time.moment?_localise isMoment) ago

/-- The periods of a window, counted from the present one. -/
def periods (count : Int) : Direction -> Set Int
  | .past => {period | 1 - count ≤ period ∧ period < 1}
  | .future => {period | 1 ≤ period ∧ period < 1 + count}

theorem ncard_between (first past : Int) :
    {period : Int | first ≤ period ∧ period < past}.ncard = (past - first).toNat := by
  have interval : {period : Int | first ≤ period ∧ period < past} = ↑(Finset.Ico first past) := by
    ext period
    rw [Set.mem_ofPred_eq, Finset.mem_coe, Finset.mem_Ico]
  rw [interval, Set.ncard_coe_finset, Int.card_Ico]

theorem ncard_periods {count : Int} (positive : 0 ≤ count) (direction : Direction) :
    ((periods count direction).ncard : Int) = count := by
  cases direction with
  | past =>
      rw [periods, ncard_between]
      omega
  | future =>
      rw [periods, ncard_between]
      omega

variable {dates : Chronology} {present moment : dates.Moment} {unit : DateUnit} {count : Int}

theorem reaches_window_iff (positive : 0 ≤ count) (direction : Direction) :
    (window direction unit).Reaches dates present count moment ↔
      ∃! period, period ∈ periods count direction ∧
        dates.IsWithin unit.part present period (period + 1) moment := by
  have consists : (window direction unit).Reaches dates present count moment ↔
      ∃ period, period ∈ periods count direction ∧
        dates.IsWithin unit.part present period (period + 1) moment := by
    cases direction with
    | past => exact Chronology.isWithin_iff_exists_period (by omega)
    | future => exact Chronology.isWithin_iff_exists_period (by omega)
  rw [consists]
  constructor
  · rintro ⟨period, inside, within⟩
    exact ⟨period, ⟨inside, within⟩, fun other found => Chronology.period_unique found.2 within⟩
  · rintro ⟨period, ⟨inside, within⟩, _⟩
    exact ⟨period, inside, within⟩

/-- The windows before and behind the start of the next period, as one window. -/
theorem reaches_either_iff {later : Int} (positive : 0 ≤ count) (laterPositive : 0 ≤ later) :
    ((window .past unit).Reaches dates present count moment ∨
        (window .future unit).Reaches dates present later moment) ↔
      dates.IsWithin unit.part present (1 - count) (1 + later) moment :=
  (Chronology.isWithin_iff_or (by omega) (by omega)).symm

theorem not_reaches_both {later : Int} :
    ¬((window .past unit).Reaches dates present count moment ∧
      (window .future unit).Reaches dates present later moment) :=
  fun both => Chronology.not_isWithin_both both.1 both.2

end RelativeDate

/-! ## Converted conditions -/

namespace Condition

/-- A condition on a column of its own table gives a count that can be expressed. -/
def Gives (condition : Condition) (relative : RelativeDate) (count : Int) : Prop :=
  condition.joinAlias = none ∧
    ∃ value, condition.scalarValue = some value ∧ Decimal.Denotes (Text.trim value) count ∧
      relative.Admits count

variable {condition : Condition} {relative : RelativeDate}

theorem convert_relativeDate (settings : Settings) (tableAlias : Text)
    (isRelative : condition.operator = relative.operator) (here : condition.joinAlias = none) :
    condition.convert settings tableAlias =
      condition.withCount relative.increment fun count =>
        relative.predicate settings.time (.column tableAlias condition.column) count := by
  rw [convert, here]
  cases relative with
  | window direction unit =>
      simp only [RelativeDate.operator] at isRelative
      simp only [isRelative]
      rfl
  | olderThan unit =>
      simp only [RelativeDate.operator] at isRelative
      simp only [isRelative]
      rfl

/-- What a conversion has to do with a condition on a relative date. It writes the
predicate for the count that the condition gives, and where there is none it makes one
report. -/
structure IsConverted (settings : Settings) (tableAlias : Text) (condition : Condition)
    (relative : RelativeDate) : Prop where
  written (predicate : Predicate) :
    (condition.convert settings tableAlias).predicate? = some predicate ↔
      ∃ count, condition.Gives relative count ∧
        predicate = relative.predicate settings.time (.column tableAlias condition.column) count
  unreported (count : Int) : condition.Gives relative count ->
    reportsOf ((condition.convert settings tableAlias).notes condition) = []
  reported : (¬∃ count, condition.Gives relative count) ->
    ∃ feature, reportsOf ((condition.convert settings tableAlias).notes condition) = [feature]

theorem Gives.unique {one other : Int} (first : condition.Gives relative one)
    (second : condition.Gives relative other) : one = other := by
  obtain ⟨_, value, isValue, denotes, _⟩ := first
  obtain ⟨_, again, isAgain, denotesAgain, _⟩ := second
  rw [isValue] at isAgain
  cases isAgain
  rw [← Decimal.integer?_eq_some_iff] at denotes denotesAgain
  rw [denotes] at denotesAgain
  exact Option.some.inj denotesAgain

theorem convert_of_gives (settings : Settings) (tableAlias : Text)
    (isRelative : condition.operator = relative.operator) {count : Int}
    (gives : condition.Gives relative count) :
    condition.convert settings tableAlias =
      .full (relative.predicate settings.time (.column tableAlias condition.column) count) := by
  obtain ⟨here, value, isValue, denotes, admits⟩ := gives
  obtain ⟨bounded, fits⟩ := (relative.admits_iff count).mp admits
  rw [convert_relativeDate settings tableAlias isRelative here, withCount, withValue, isValue]
  simp only [Decimal.integer?_eq_some_iff.mpr denotes, if_pos bounded, if_pos fits]

theorem convert_of_not_gives (settings : Settings) (tableAlias : Text)
    (isRelative : condition.operator = relative.operator)
    (nothing : ¬∃ count, condition.Gives relative count) :
    ∃ feature, condition.convert settings tableAlias = .dropped feature := by
  cases place : condition.joinAlias with
  | some joinAlias =>
      rw [convert, place]
      exact ⟨_, rfl⟩
  | none =>
      rw [convert_relativeDate settings tableAlias isRelative place, withCount, withValue]
      split
      · next value isValue =>
          split
          · next count read =>
              have denotes := Decimal.integer?_eq_some_iff.mp read
              split
              · next bounded =>
                  have unfit : ¬Decimal.fits32 (relative.increment count) = true := fun fits =>
                    nothing ⟨count, place, value, isValue, denotes,
                      (relative.admits_iff count).mpr ⟨bounded, fits⟩⟩
                  rw [if_neg unfit]
                  exact ⟨_, rfl⟩
              · exact ⟨_, rfl⟩
          · exact ⟨_, rfl⟩
      · exact ⟨_, rfl⟩

theorem isConverted (settings : Settings) (tableAlias : Text)
    (isRelative : condition.operator = relative.operator) :
    condition.IsConverted settings tableAlias relative := by
  refine ⟨fun predicate => ?_, fun count gives => ?_, fun nothing => ?_⟩
  · constructor
    · intro kept
      by_cases given : ∃ count, condition.Gives relative count
      · obtain ⟨count, gives⟩ := given
        rw [convert_of_gives settings tableAlias isRelative gives] at kept
        exact ⟨count, gives, (Option.some.inj kept).symm⟩
      · obtain ⟨feature, dropped⟩ := convert_of_not_gives settings tableAlias isRelative given
        rw [dropped] at kept
        cases kept
    · rintro ⟨count, gives, rfl⟩
      rw [convert_of_gives settings tableAlias isRelative gives]
      rfl
  · rw [convert_of_gives settings tableAlias isRelative gives]
    rfl
  · obtain ⟨feature, dropped⟩ := convert_of_not_gives settings tableAlias isRelative nothing
    rw [dropped]
    exact ⟨feature, rfl⟩

end Condition

/-- How relative dates are converted under some settings: no increment is longer than 32
bits, a predicate is written for each count that can be expressed and for nothing else, and
it keeps the rows that the count reaches. -/
structure Settings.AreExact (settings : Settings) (tableAlias : Text) : Prop where
  short : ∀ query : Query,
    ∀ numeral ∈ Sql.increments (Sql.lexemes (query.convert settings tableAlias).clause),
      Sql.IsShort numeral
  converted (condition : Condition) (relative : RelativeDate) :
    condition.operator = relative.operator -> condition.IsConverted settings tableAlias relative
  keeps (dates : Chronology) (row : Text -> Text -> Option dates.Moment) (now : dates.Moment)
      (relative : RelativeDate) (column : Text) (count : Int) (moment : dates.Moment) :
    row tableAlias column = some moment ->
      ((relative.predicate settings.time (.column tableAlias column) count).Holds dates row now ↔
        relative.Reaches dates (settings.time.shift dates now) count
          (settings.time.shift dates moment))

/-- How the windows of a unit lie to each other. Each consists of as many periods as are
counted, the one ends where the other begins, and they share no moment. -/
structure DateUnit.WindowsMeet (unit : DateUnit) (past future : Int) : Prop where
  pastPeriods : ((RelativeDate.periods past .past).ncard : Int) = past
  futurePeriods : ((RelativeDate.periods future .future).ncard : Int) = future
  consists (dates : Chronology) (present moment : dates.Moment) (direction : Direction) :
    ∀ count ∈ [past, future],
      (RelativeDate.window direction unit).Reaches dates present count moment ↔
        ∃! period, period ∈ RelativeDate.periods count direction ∧
          dates.IsWithin unit.part present period (period + 1) moment
  adjacent (dates : Chronology) (present moment : dates.Moment) :
    ((RelativeDate.window .past unit).Reaches dates present past moment ∨
        (RelativeDate.window .future unit).Reaches dates present future moment) ↔
      dates.IsWithin unit.part present (1 - past) (1 + future) moment
  disjoint (dates : Chronology) (present moment : dates.Moment) :
    ¬((RelativeDate.window .past unit).Reaches dates present past moment ∧
      (RelativeDate.window .future unit).Reaches dates present future moment)

/-- Relative dates under every offset. -/
theorem relativeDates_exact (hours : Float) (environment : Environment) (tableAlias : Text)
    (unit : DateUnit) {past future : Int} (pastPositive : 0 ≤ past)
    (futurePositive : 0 ≤ future) :
    Settings.AreExact ⟨.ofHours hours, environment⟩ tableAlias ∧ unit.WindowsMeet past future := by
  refine ⟨⟨?_, ?_, ?_⟩, ⟨?_, ?_, ?_, ?_, ?_⟩⟩
  · exact fun query => query.isShort_of_mem_increments (LocalTime.isShort_ofHours hours) tableAlias
  · exact fun condition relative isRelative => condition.isConverted _ tableAlias isRelative
  · intro dates row now relative column count moment isMoment
    have stands : (Expression.column tableAlias column).moment? dates row now = some moment :=
      isMoment
    exact relative.holds_predicate (.ofHours hours) stands count
  · exact RelativeDate.ncard_periods pastPositive .past
  · exact RelativeDate.ncard_periods futurePositive .future
  · intro dates present moment direction count member
    have positive : 0 ≤ count := by
      rcases List.mem_pair.mp member with rfl | rfl
      · exact pastPositive
      · exact futurePositive
    exact RelativeDate.reaches_window_iff positive direction
  · exact fun dates present moment => RelativeDate.reaches_either_iff pastPositive futurePositive
  · exact fun dates present moment => RelativeDate.not_reaches_both

/-- The last seven days by a column of the view's own table. -/
def lastSevenDays : Condition :=
  ⟨"createdon", .window .past .day, some " +7 ", [], none⟩

/-- A calendar of months with thirty days. -/
def monthsOfThirtyDays : Chronology :=
  .uniform (fun
    | .minute => 1
    | .hour => 60
    | .day => 1440
    | .week => 10080
    | .month => 43200
    | .year => 518400) fun part => by cases part <;> decide

theorem relativeDates_exact_sevenDays :
    0 ≤ (7 : Int) ∧ 0 ≤ (3 : Int) ∧
      Settings.AreExact ⟨.ofHours 5.5, .unrestricted⟩ "Base" ∧ DateUnit.day.WindowsMeet 7 3 ∧
      lastSevenDays.Gives (.window .past .day) 7 ∧
      ((lastSevenDays.convert ⟨.ofHours 5.5, .unrestricted⟩ "Base").predicate? =
        some ((LocalTime.ofHours 5.5).window (.column "Base" "createdon") .day 7 .past)) ∧
      ∀ created now : monthsOfThirtyDays.Moment,
        ((LocalTime.ofHours 5.5).window (.column "Base" "createdon") .day 7 .past).Holds
            monthsOfThirtyDays (fun _ _ => some created) now ↔
          monthsOfThirtyDays.IsWithin .day ((LocalTime.ofHours 5.5).shift monthsOfThirtyDays now)
            (1 - 7) 1 ((LocalTime.ofHours 5.5).shift monthsOfThirtyDays created) := by
  obtain ⟨areExact, windows⟩ := relativeDates_exact 5.5 .unrestricted "Base" .day
    (by decide : 0 ≤ (7 : Int)) (by decide : 0 ≤ (3 : Int))
  have gives : lastSevenDays.Gives (.window .past .day) 7 :=
    ⟨rfl, " +7 ", rfl, Decimal.integer?_eq_some_iff.mp (by decide), by decide, by decide⟩
  have converted := areExact.converted lastSevenDays (.window .past .day) rfl
  refine ⟨by decide, by decide, areExact, windows, gives, ?_, fun created now => ?_⟩
  · exact (converted.written _).mpr ⟨7, gives, rfl⟩
  · exact areExact.keeps monthsOfThirtyDays (fun _ _ => some created) now (.window .past .day)
      "createdon" 7 created rfl

/-- A condition that is written outside the link it speaks about is left out, whatever
count it gives. -/
theorem relativeDate_of_otherTable_left_out :
    let condition : Condition := ⟨"createdon", .window .past .day, some "5", [], some "c"⟩
    condition.operator = (RelativeDate.window .past .day).operator ∧
      condition.scalarValue = some "5" ∧ Decimal.Denotes (Text.trim "5") 5 ∧
      (RelativeDate.window .past .day).Admits 5 ∧
      (condition.convert ⟨⟨0⟩, .unrestricted⟩ "Base").predicate? = none :=
  ⟨rfl, rfl, Decimal.integer?_eq_some_iff.mp (by decide), ⟨by decide, by decide⟩, rfl⟩

end Filter

end TabularModel
