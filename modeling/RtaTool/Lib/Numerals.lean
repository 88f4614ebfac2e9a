import Mathlib.Data.Nat.Init

/-!
# Numerals

The numerals that the models write in an arbitrary field. That a numeral is at least two is a
constant of its own here, so a definition that writes it holds the constant and no proof.
-/

namespace RtaTool

instance atLeastTwo_two : Nat.AtLeastTwo 2 := ⟨by omega⟩

instance atLeastTwo_three : Nat.AtLeastTwo 3 := ⟨by omega⟩

instance atLeastTwo_four : Nat.AtLeastTwo 4 := ⟨by omega⟩

instance atLeastTwo_five : Nat.AtLeastTwo 5 := ⟨by omega⟩

instance atLeastTwo_six : Nat.AtLeastTwo 6 := ⟨by omega⟩

instance atLeastTwo_seven : Nat.AtLeastTwo 7 := ⟨by omega⟩

instance atLeastTwo_nine : Nat.AtLeastTwo 9 := ⟨by omega⟩

instance atLeastTwo_ten : Nat.AtLeastTwo 10 := ⟨by omega⟩

instance atLeastTwo_eleven : Nat.AtLeastTwo 11 := ⟨by omega⟩

instance atLeastTwo_twelve : Nat.AtLeastTwo 12 := ⟨by omega⟩

instance atLeastTwo_twenty : Nat.AtLeastTwo 20 := ⟨by omega⟩

instance atLeastTwo_twentyFive : Nat.AtLeastTwo 25 := ⟨by omega⟩

instance atLeastTwo_thirtyFive : Nat.AtLeastTwo 35 := ⟨by omega⟩

instance atLeastTwo_forty : Nat.AtLeastTwo 40 := ⟨by omega⟩

instance atLeastTwo_fiftyFive : Nat.AtLeastTwo 55 := ⟨by omega⟩

instance atLeastTwo_sixty : Nat.AtLeastTwo 60 := ⟨by omega⟩

instance atLeastTwo_hundred : Nat.AtLeastTwo 100 := ⟨by omega⟩

instance atLeastTwo_hundredTwenty : Nat.AtLeastTwo 120 := ⟨by omega⟩

instance atLeastTwo_hundredEighty : Nat.AtLeastTwo 180 := ⟨by omega⟩

instance atLeastTwo_threeHundredSixty : Nat.AtLeastTwo 360 := ⟨by omega⟩

instance atLeastTwo_fiveHundred : Nat.AtLeastTwo 500 := ⟨by omega⟩

instance atLeastTwo_thousand : Nat.AtLeastTwo 1000 := ⟨by omega⟩

instance atLeastTwo_twoThousand : Nat.AtLeastTwo 2000 := ⟨by omega⟩

instance atLeastTwo_twelveThousand : Nat.AtLeastTwo 12000 := ⟨by omega⟩

instance atLeastTwo_fortyEightThousand : Nat.AtLeastTwo 48000 := ⟨by omega⟩

instance atLeastTwo_billion : Nat.AtLeastTwo 1000000000 := ⟨by omega⟩

end RtaTool
