import Switchboard.Unicode.RangeTable

/-!
# Marks

The characters that combine with the one before them. A label of a domain name does not begin
with one.
-/

namespace Switchboard

namespace Unicode

def markLines : List String := [
  "BDO33KQ6KE18C0C1C1C1CUaBXkR0DY6D5D1C3BK0BFqDOaCH8K0Z3C8C2C4BS2CI8BRnCwCD2ChC6L1BE2CF0C6D1D2K0L1BB0D2CF0C4F1D2E0BF1E0M2CF0C7C2C2V1X5C2CF0C6D1D2I2L1BF0CI4E2C3K0BP4CE0C6C2C3I1M1BE2CF0C6C2C3I1M1Q0N3CE1C6C2C3K0L1BE2CT0F5C0C7T1CK0D6N7DV0D8M6CW1BC0C0C0F1BYjC1GaCzK0DXjY3F2C2D6E3ObC0L3BBC2BKL3BD2BE1BF1CNvK0B",
  "U2C0EO1BJ0EPbFbIM4CG9CsD0BX19DbV4BWgBN8N2BFcCFdBXjFX2CkF0H0D2HR1rBBTwEOD2FM0DTvVJ5EC1BSQF3C9BH1DD1KN0E0F0Y4F0DG1BZhBBhO0BN7BAcBT3BWdBL0CQdN0J1BU2BZ0C2D1G1C0BQ4G1JD7C1BDZT0BCKfRfBLM0IT0FU4CMH2C1G3BP2F0GK1WC3CO4MG1DA5CTaBY3ET2CCeBQ0D1L3BUaI0CK2BLdR1BT0N2BXdJ3C1DPbH0D0GCbW3CE1C6D1D2K0L1D6E4CQ8C0D0C3C4C",
  "0P1DFhY0DEjJC6D8BC1DFgEDcDYeJXeJM5C1D3C0C1FM6D6E0BD9BP6C3J0KaBVfHR7HS7C7DFlCdET5E0C1C6C0CP4C1C4NK3K1C0BX6E4Y0HXU0HeQYZhDSB4CI6BOJ0C1iI3DE0M1BDAY1GZA19DmUX4E5J7D6BF3FT2CYE1iF1dJ0P0X4CeCAJ6CgD6C1C4DX0GF6OM0CK3TP3JV1JK0D0I1G0SH6EG6BTCIW6n"]

def marks : RangeTable := .ofLines markLines

def isMark (c : Char) : Bool := marks.holds c

end Unicode

end Switchboard
