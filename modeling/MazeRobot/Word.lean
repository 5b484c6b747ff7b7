/-! # Machine words

Numbers are kept in signed words of 64 bits.

* `wordBound`: the first number that does not fit. -/

namespace MazeRobot

/-- The first number that a signed word of 64 bits does not hold: two to the power of 63. -/
def wordBound : Nat := 9223372036854775808

end MazeRobot
