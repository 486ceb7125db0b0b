import Switchboard.Unicode.RangeTable

/-!
# Directional classes

Which way a character is written, as far as the rule for right-to-left domain names asks.
-/

namespace Switchboard

namespace Unicode

/-- The directional class of a character. -/
inductive BidiClass where
  | leftToRight
  | rightToLeft
  | arabicLetter
  | arabicNumber
  | europeanNumber
  /-- A sign before a number. -/
  | europeanSeparator
  | commonSeparator
  /-- A character beside a number, such as a currency sign. -/
  | europeanTerminator
  | otherNeutral
  /-- A character without a width. -/
  | boundaryNeutral
  | nonspacingMark
  | separator
deriving Repr, DecidableEq, Inhabited

def rightToLeftLines : List String := [
  "CCU0BU0C0D0D0D1iRH16K1F2CnF0K0E0G16E3IZG0DEYW0C9C11EUZ7yC68E0D4F13E3C4kD29IcfCXuH6oBG17DiCN1bCN",
  "hF3dDDUV5rI30ImcDD1rDD4vJX73"]

def arabicLetterLines : List String := [
  "CHK0D0C0O1bBJ2C2sQ1I1LmCtBC2iMeGF1bD4K15DNVZ36Ra2T1rD1hBPcEM3yFHYzF7L5OVfKwCDlMuDFSB27CN27GV6nD",
  "d"]

def arabicNumberLines : List String := [
  "CHC5DN9C1EJ0QT1DD0DUPA9H9KTu"]

def europeanNumberLines : List String := [
  "BW9ER1G0CJF9JQT0E5H9BNJjDESZ9BLGqCYMN9ECR1dJMFaEDI9"]

def europeanSeparatorLines : List String := [
  "BR0C0MGB1P1PB0DEFN0BFT1GM0C0"]

def commonSeparatorLines : List String := [
  "BS0C1L0DY0CBK0JXJ0V0DGCI0C0D0HB0C1L0"]

def europeanTerminatorLines : List String := [
  "BJ2EV3L1BVY0ES1DS0BIU1I0JM0KE0WK0DQQ0DEB4EE1bDR0IV0BYUV1BGQG0K1FX2IL1E1MCT3CVXF0"]

def otherNeutralLines : List String := [
  "BH1E4R5BB5BB3BJ0F3C1C1F0C2D4Y0BG0RI1IdDdG8CgEN1J0G1C0EH0PO0D1EQ1H1HZ0L0KJ3BNE5C0EW6BAY3BQP9DZ0ZR1NC9HaLY0E1FXxCEO0C2M2O2O2O1SnOeCpBE2O2EK1C3C1L0C2G5C0C0C0R1F4G3DfBQ2F3lD81CSpC43XaW13DVchC9eJXhfD3tIW5P6JX2lD0BGpC2gN5xBBfC3EoQ0G1G2DO1E0DN0HP11K0BU1BYfBD2BZeN3GM3DW1BG0JTP1rBGUJ1iMP2DW0L1EZxDZ0GE3CV3BDB",
  "1BELCfOAhCN1CD7BU2R9XvC0D0C8C1D2C0D0FU1E4R5BB5BBaEV2E6L4KA0CL24EcE0CVV0US6VN0NQ8OOjCGXcDOR7FgBEHD0BIXA5xBL2Ec3HmQgBDH1W1tE0HF2eBHR0BA0BG0BA0BG0BA0BG0BA0BG0BA0IUF1KL17F2rNeDeCeC10W4BG0CH5CK0GX5FZrdDgEcE61HbF0QbF1jJ9H13JtDbF1P8BO9jJdDcE1yC0EhCcEbG42C2jL0"]

def boundaryNeutralLines : List String := [
  "A8GdDW5CpO0IWF0DAR2DF5F5DFVTvKM0JH8G1CTLH3HWY7RQA1DSYP1DSYP1DSYP1DSYP1DSYP1DSYP1DSYP1DSYP1DSYP1",
  "DSYP1DSYP1DSYP75JH2rzDMXB1DSYP1DSYP1"]

def nonspacingMarkLines : List String := [
  "BDO33KQ6KE18C0C1C1C1CUaBXkR0DY6D5D1C3BK0BFqDOaCH8K0Z3C8C2C4BS2CI8BRnCvCE0C0F7F0E6L1BE0CH0F3J0V1BB0D1CG0F1F1D2E0BF1E0M1CG0F4C1F0V1X5C0CH0D0C3J0I1M1BF0CK0N0BZ0E0CE0C2G2C3I1M1BE0CH0Q1V1BD1CG1F3J0V1BE0CV0I2C0DN0D6N7DV0D8M6CW1BC0C0C0CEdC4C1GaCzK0DZ3C5C1D1BA1F2R3O0D1H0Q0BBC2BKL2BE1BF1BF1CN1C6J0DaK0BU2C0EO",
  "1BJ0EP2F1K0H2IM1D0CH0C6C0C0D7H9D0BX19DbV3BX0C4C0G0BP8N1BH3D1C2CF0C1E0C2CH7D1FX2CcC6F0H0E1HR1rBBTwEOD2FM0DTvVJ3EE1BSQF3C9BH1DD1KN0E0F0BA1G0FW1BBhO0BN7BAaBV2BX0D3D1BO0CQ5D1D1N0J0BW0CA0C2D1G1C0BR1J0JF0D0F0BDZT0BCKfRfBLM0IT0FU4CMH2C1G3BP2F0GK1WC3CO4MG1DA5CTaBY3EU0CDeBQ0D1L2BY3D1I0CK2BL4C7CL0N1CB8L3D0DS2",
  "D0C1H0D0GC0E7W1CG1E0BM6E4CT5O0C0C0P1DI7D2C0Y0DH5C0F1C1JF3H1C1BC1DI7D0C1ED0C0D5C0DY0C0D3C4KA8C1JX1C0F0FP3D1F0BH5D1BP5D3J0K5D2BVcC1HR0C2C0HU6C5DHlD6C1C1ET5E0C1C6C0CV1E0C0NK1M1CB4G0C0Y0HXU0HeQYZbE2DSB4CI6BOJ0CM3DE0BDBL1GZA19DmUZ2S7D6BF3FT2CYE1iF1dJ0P0X4CeCAJ6CgD6C1C4DX0GF6OM0CK3TP3JV1JK0D0I1G0SH6EG6BTC",
  "IW6n"]

def separatorLines : List String := [
  "J4P4DX0IIL0DPOaBE6BX0H3FXN0"]

def bidiTables : List (BidiClass × RangeTable) := [
  (.rightToLeft, .ofLines rightToLeftLines),
  (.arabicLetter, .ofLines arabicLetterLines),
  (.arabicNumber, .ofLines arabicNumberLines),
  (.europeanNumber, .ofLines europeanNumberLines),
  (.europeanSeparator, .ofLines europeanSeparatorLines),
  (.commonSeparator, .ofLines commonSeparatorLines),
  (.europeanTerminator, .ofLines europeanTerminatorLines),
  (.otherNeutral, .ofLines otherNeutralLines),
  (.boundaryNeutral, .ofLines boundaryNeutralLines),
  (.nonspacingMark, .ofLines nonspacingMarkLines),
  (.separator, .ofLines separatorLines)]

/-- The directional class of a character; one that no table holds is written from left to right. -/
def bidiClass (c : Char) : BidiClass :=
  ((bidiTables.find? fun entry => entry.2.holds c).map (·.1)).getD .leftToRight

end Unicode

end Switchboard
