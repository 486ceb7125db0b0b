import Switchboard.Unicode.RangeTable

/-!
# Joining types

How the letters of cursive scripts join, which decides where an invisible joiner may stand.
-/

namespace Switchboard

namespace Unicode

/-- How a character joins the ones beside it. -/
inductive JoiningType where
  /-- It joins neither side. -/
  | none
  /-- It joins the character before and the one after. -/
  | dual
  /-- It joins the character after. -/
  | left
  /-- It joins the character before. -/
  | right
  | transparent
deriving Repr, DecidableEq, Inhabited

def dualJoiningLines : List String := [
  "CII0G0C0C4FcC6C1BK1JfT11C1K0C0C1BP2D0T2G3C8C0C0C1BGaEeD3C0D2D5CXwDJ4D0C9C0L0C3D0BE0D4C0R9G1D5Ce",
  "FUD0Z2gPxC0CCJU1dBLFZ4P3C4C2L3FQ0C0E2C1C0D0BD1NBwC0QA1C1EB2CgN2BD3DbBV0C1F0D1C1C0D0G0DEGS1v"]

def leftJoiningLines : List String := [
  "CLUO0BLGL0K0VH0BBN0"]

def rightJoiningLines : List String := [
  "CIK3C0C0G3W0BP2C2RhBN0D8C0C0D1C0Z1BH0F4F0K0C0C0D0BE0M2Q1F0C1E1HR0G1C0L0C2P0C1GiM0BC2C0D1H0DTSU0",
  "C0C1E4L0E0D0L0FQ0C2E0D0C1C0Y3OK0QA0EJ0BH0BG1CL2D1D0F1G0"]

def transparentJoiningLines : List String := [
  "GR0WX33KQ6KE18C0C1C1C1CUaC0BVkR0DY6D5D1C3BI0C0BFqDOaCH8K0Z3C8C2C4BS2CI8BRnCvCE0C0F7F0E6L1BE0CH0F3J0V1BB0D1CG0F1F1D2E0BF1E0M1CG0F4C1F0V1X5C0CH0D0C3J0I1M1BF0CK0N0BZ0E0CE0C2G2C3I1M1BE0CH0D0H0G1V1BD1CG1F3J0V1BE0CV0I2C0DN0D6N7DV0D8M6CW1BC0C0C0CEdC4C1GaCzK0DZ3C5C1D1BA1F2R3O0D1H0Q0BBC2BKL2BE1BF1BF1CN1C6J0D",
  "aK0BU2C0EO1BJ0EP2F1K0H2IM1D0CH0C6C0C0D7H9D0BX19DbV3BX0C4C0G0BP8N1BH3D1C2CF0C1E0C2CH7D1FX2CcC6F0H0E1HR1rUE0D1BB4BY4G5DTwEOD2FM0DTvVJ3EE1BSQF3C9BH1DD1KN0E0F0BA1G0FW1BBhO0BN7BAaBV2BX0D3D1BO0CQ5D1D1N0J0BW0CA0C2D1G1C0BR1J0JF0D0F0BDZT0BCKfRfIA0JQ2TU0IT0FU4CMH2C1G3BP2F0GK1WC3CO4MG1DA5CTaBY3EU0CDeBQ0D1L2BY3",
  "D1I0CK2BL4C7CL0N1CB8L3D0DS2D0C1H0D0GC0E7W1CG1E0BM6E4CT5O0C0C0P1DI7D2C0Y0DH5C0F1C1JF3H1C1BC1DI7D0C1ED0C0D5C0DY0C0D3C4KA8C1JX1C0F0FP3D1F0BH9BP5D3J0K5D2BVcC1HR0C2C0HU6C5C0DFlD6C1C1ET5E0C1C6C0CV1E0C0NK1M1CB4G0C0Y0HXEgHeQYZbE2DSB4CI6BOJ0CM3DE0BDBL1C3GYV19DmUZ2KfD6BF3FT2CYE1iF1dJ0P0X4CeCAJ6CgD6C1C4DX0GF6O",
  "M0CK3TP3JV1JK0D0I1G0SH6EG7BTBZA0BF2nEZ6n"]

def joiningTables : List (JoiningType × RangeTable) := [
  (.dual, .ofLines dualJoiningLines),
  (.left, .ofLines leftJoiningLines),
  (.right, .ofLines rightJoiningLines),
  (.transparent, .ofLines transparentJoiningLines)]

def joiningType (c : Char) : JoiningType :=
  ((joiningTables.find? fun entry => entry.2.holds c).map (·.1)).getD .none

end Unicode

end Switchboard
