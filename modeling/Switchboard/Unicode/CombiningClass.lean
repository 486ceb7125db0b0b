import Switchboard.Unicode.RangeTable

/-!
# Combining classes

Marks of different classes combine with a letter in any order; the class decides which order is
the canonical one.
-/

namespace Switchboard

namespace Unicode

def combiningClassLines : List String := [
  "BDOk>6e>6gB3>64>6g>60B4>64B1>5mB3>64B1>5mBa>64B4>1B3>64B7>6e>6o>6eB2>64B2>6eB1>64C2>6eB3>64>6e>6gB1>64>6e>6hB1>6i>6hB1>6i>6hBc>6eKQ4>KG>64B3>6e>64B2>6e>66>64B5>6eB5>64B1>6e>64B1>6e>66>6c>6e>a>b>c>d>e>f>g>h>iB1>j>k>l>mC>nC>o>pC>6e>64C>i>6eCU7>>u>v>wBX>r>s>t>u>v>w>x>yB1>6eB1>64B4>6e>64B1>6e>64R>zDY6>6",
  "eD3>>64>6eD1>C>64B1>6e>64BK>10BF>6e>64B1>6e>64B1>6eB2>64>6eB1>64>6e>64B2>6e>64>6e>64>6e>64>6e>64B1>6eGF6>>64>6eK>64Z3>6eC8>C2>C4>BS2>64CI1>6eB2>64B3>6eBR4>B4>64Bd>6eC>64B1>6e>64B1>6e>64B2>6eB2>64>r>s>tB2>6e>64B1>6eB1>64B4>6eCJ>7R>9E>6e>64B1>6eEA>7R>9BX>6eCK>7R>9EH>7R>9EH>7R>9EY>EH>7R>9I>2c>2jDY>7R>9",
  "EG1>R>EV>EG1>2v>9O3>2zEF1>3a>9O3>3eCZ1>64BC>C>C>60CE>3l>3mC>3oG3>3mD>C1>6e>9C1>6eCL>64EJ>7C1>9DF>64BBS2>6eBKN1>9BF>GC>L>6eHW>6cFO>66>6e>64IM>6e>64CU>9V7>6eD>64BX4>6eB5>64B1>6e>64C1>B1>6eB1>64B4>6e>64Bh>6e>64D5>6e>64B3>6e>6iCV>7Q>9BN>6e>64B6>6eCD1>9CH>7M1>9CQ>7FX2>6eC>1B4>64B1>6eB3>64>6eC6>1F>64H>6eE",
  "1>HR1>>64B6>6e>64B1>6e>6i>5y>64>5mB10>6e>6gB1>6c>64>62>6e>6h>64>6e>64BBT1>6eB1>1B3>6eB2>1B1>6eF>E1>1>6e>64>6eB1>1B3>64>6eEOD2>FM>9DTv>6eVJ>62>6c>6g>66B1>68EC1>8BSQF>6eF9>BH1>DD1>KR>9BM>FW>BCh>6eCG2>64BM>9DS>7N>9JG>6eC1>>64D1>6eG1>C>CB>9JN>BDZT>qBDQ6>6eB6>64B1>6eBLM>64IT>FU4>6eCMT>64C>6eBP>>1>64F>9GK",
  ">6e>64WC3>6eCO4>MG1>DA1>64C2>CT1>B2>6e>64>6eB3>64BY>6e>64>6e>64HL>9BQ>P>CG>>7CS2>6eBX1>9CL>7CZ>9K>7ED>9>7GX>>9DD1>7R>9Z6>6eE4>DM2>9EK>E>7Y>6eDW>9>7JS>9>7EX>9EP>>7EM>9KK>>7JZ1>9F>7GB>9DG>T>DE>QG>JZ>7C1>9DE>QK1>YZD>DSB4>1CI6>6eBUO1>6BDAZ>1HWP1>60B2>1E>6aB4>60J7>64D4>6eB1>64BF3>6eFT2>FFG6>Cg>D6>C1>C4>D",
  "X>GF6>OM>CK3>TP1>6g>64>6eJV>>64JK>6eD>I1>G>SH6>64EG5>6e>7"]

def combiningClasses : RangeTable := .ofLines combiningClassLines

def combiningClass (c : Char) : Nat :=
  match combiningClasses.find? c with
  | some s => s.target.headD 0
  | none => 0

def viramaClass : Nat := 9

end Unicode

end Switchboard
