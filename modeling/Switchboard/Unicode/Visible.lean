import Switchboard.Unicode.RangeTable

/-!
# Characters that show

A character shows when it is neither a blank other than the space, nor a control, nor reserved or
private, nor one that only extends the character before it, nor one that is passed over where it
cannot be drawn. The two halfwidth sound marks extend the character before them, but show.
-/

namespace Switchboard

namespace Unicode

/-- The stretches, from the last control of ASCII on, of characters that leave no mark. -/
def voidLines : List String := [
  "EXxN0BBN1H3I0C0V0PI0BN1BZ1E0CE7BC3HgX0HL0BX1CI1DYdCI1BY1Q0BD1C0M4BH6CY0GG0J1D1X0I0C2F1K1D1F7C3D0G1BA1E0H3D1X0I0D0D0D1C0G3D1E2C6F0C6S9E0K0E0X0I0D0G1L0E0E1CeF1N6I0E0J1D1X0I0D0G1K1D1E6E3D0G1T9D0H2E0F2D0C0D2D2E2N3G2E0F1C5CdW4O0E0Y0R1K0E0F6D0E0D1F1L6X0E0Y0L0G1K0E0F6D4E0F1L0EbO0E0CA0E0H3R1BB0E0T2Z0K0C1I2C",
  "3H0C0J5L1EbCH3BE10D0C0G0Z0C0Y1G0C0I0L1FvCV0BL3BO0BL0Q0O10HR0C4C1OO0F1I0C0F1BQ0F1BI0F1I0C0F1Q0CG0F1CQ1BH2BB5DJ1H1YR0BD2DM6X8Z8VbO0E0DbDR1L5L5P0M5DM6BS4CT9BG0N3N3C2BR1GaBT3BB5M2CL1CO0BE1M5L5P1BV1NjDA0GL7CJ2Q2CL4BS1M7BS4UP1H1BN1H1J0C0C0C0BG1CC0Q0P1H0U1E0KgZ7BWgD1BC0O2BJdBIeFL3ZRlMkCRT1OT4BU0C4C1CF6DdZ8",
  "I0I0I0I0I0I0I0I0EXxBB0DMbIHpR0CM0DJ1EA4BS0DR0DJ8BX0BRIS2CE8NLjHD7IOjCJ2L5CF7CT7N5ENaBF2DB0M3BI0CE8P1L1EAnBD9H1H1H8I0I0CJ3EX1L5QNTbY3BY6irOD1ED11IbG4BB0G0C0D0D0ZBvBR5CA0U0F3G0FG3HJ2H1H1H1E2I0IcD1N0BB0U0D0Q1PxEU4E3BU2DL0O2C1aBV3lBE2BYeBD3BL8BF4BS4BF0BM3P15GD1L5BL3BL3BP7CBaN0Q0I0D0M0Q0I0D2CBbMA8X9JnH0B",
  "R0K1wH1C0BT0D2C1Y0CV7K1bU0D4BI2BC4BC11CF3V1BZ0D4J0E0BE1E3L6K6CNvBO3N8CD2BE1BC4BB6FbI27CW1iCAcCA6BV7L5BN2BE7D5rBG0BR0E1DfH7KwBV7BRlBB11BDjY8DB3BL8CL0GcBA6L5CC0T7BO8DT0VaT0BW1pI0C0F0Q0M5CI4L5F0J1D1X0I0D0G0L1D1E1C5C4I1I2GaL0C1C0BN0L0C1C0F0L0D7DsDP0GtCV7L4lCD1BNxCSaL5OiCH5L5VrBC1Q3Y54CJ2rDGbJ1C1J0D0BF0D",
  "1N8L1xJ1BV1MqCV7DGcCW6L2dJ2fBJdL5K0BU0P9BE2BH1X0P20I0D0BT2C0D0K7L5H0D0BM0D0H6L5BT3L6tBA6S0BQ2BE2cCeBZcBJO2tEI0GaHP217DWcBPHfX9FXS4WM5a0CH1c5VY6BG0L3DE0L5BF1H9CT9L0I0W4UbzCH5hDO4BA1BA17CY3CG6S1rGaI8KXZ14BH2oEM6poF0I0D0LGeCsE1CdF7PH1s3EE4O2K6L1F31bJU2QV5YeSeBV1Y8EN1nJN9BO1CX7EJkCT3dVbVbDK8BA3qDI0CU0D1",
  "C1D1F0N0C0I0CO0F1J0I0BD0F0G0C2I0ND1LH1BBBeG0QunBG5H5wI0S1I0D0G4CLwC33BU2P1L3D8vBGgCH4CcvBR5xBS3C5bBG0X7D67I0F0D0Q0HQ1R14CZ3L3DlsCR23CK5dF0BC0D0C1C0L0F0C0C5C3C0C0C0E0D0C1C0C0C0C0C0D0C1F0I0F0F0C0L0S4E0G0S1fD7hBT3DXbQ1Q0Q0BM9GT1jBEcBT3K6DdH49BLY2S2O2IL5N3CeN3CF7L5BP7BF1N3DdK12NH7P1O2M2CG0C3R1N3L6FS0EAs",
  "kCLFDvGMP1IOD1LBMeXZ1whUX15tHIA4MOPf62tJH47bj"]

/-- The stretches of characters that extend the one before them or are passed over. -/
def extenderLines : List String := [
  "BDO33KQ6KE18C0C1C1C0CVaBXkR0DY6D5D1C3BK0BFqDOaCH8K0Z3C8C2C4BS2CI8BRnCvCE0C0F7F0E6L1BE0CH0C0D3J0K0L1BB0D1CG0F1F1D2E0BF1E0M1CG0F4C1F0V1X5C0CH0C1C3J0I2L1BF0CI0C0N0K0BP0E0CE0C2G2C3I1M1BE0CH0D1C0E2C3I1M1BD1CG1C0D3J0K0L1BE0CV0F0D2C0J0DE0D6N7DV0D8M6CW1BC0C0C0CEdC4C1GaCzK0DZ3C5C1D1BA1F2R3O0D1H0Q0HM1TP2BKL3B",
  "D2BE1BF1CN1C6J0DaK0BU2C0EO1BJ0EP2F1K0H2IM1D0CH0C6C0C0D7H9D0BX19DbV3BX9F2BN8N1BH3D5CF0C1E0C4CF7D1FX2CcC6F0H0E1HR1rBBTwEOD2FM0DTvVJ5EC1HU0BSIL3C9BH1DD1KN0E0F0BA1G0FW1BBhO0BN7BAaC0BT2BX0D3D1D0BL0CQ5D1D1N0J0BW0CA0C2D1G1C0BR1J0JF0D0F0BDZT0BCKfRfOF0XH0IT0FU4CMH2C1G3BP2F0GK1WC3CO4MG1DA5CTaBY3EU0CDeBQ0D1L2B",
  "Y3D1I0CK2BL4C7CL0N1CB8C0J3D0DS2D3H0D0GC0E7W1CG1C0C0N0K0P6E4CQ0D5C0D0C2F2C0P1DI7D2C0Y0DE0D5C0D0C1C1JC0D3H1C1BC1DI7D0C1ED0C0D7DY0C0D3C4KA8C1JM0L3F0FP3D1F0BH9BP5D3J0K5D2BVcC1HR0C2C0HU6C5C0DFlD6C1C1ET5E0C1C6C0CV1E0C0NK1M1CB4G2Y0HXU0HeQYZbE2DSB4CI6BOJ0CM3DE0M1BDAY1GZA19DmUX4E5J7D6BF3FT2CYE1iF1dJ0P0X4CeCA",
  "J6CgD6C1C4DX0GF6OM0CK3TP3JV1JK0D0I1G0SH6EG6BTCIW6n"]

def voids : RangeTable := .ofLines voidLines

def extenders : RangeTable := .ofLines extenderLines

def shows (c : Char) : Bool := 0x20 ≤ c.toNat && !voids.holds c && !extenders.holds c

end Unicode

end Switchboard
