import Switchboard.Unicode.Decomposition

/-!
# Characters of domain names

What becomes of each character beyond ASCII when a domain name is read: it stays, it is dropped, it
is replaced, or it is refused.
-/

namespace Switchboard

namespace Unicode

def refusedLines : List String := [
  "EYvBCB1H3I0C0V0PI0BN1BZ1E0CF6BC3HgX0HL0BX1CI1DYdCI1BY1Q0BD1C0M4BH6CY0GG0J1D1X0I0C2F1K1D1F7C3D0G1BA1E0H3D1X0I0D0D0D1C0G3D1E2C6F0C6S9E0K0E0X0I0D0G1L0E0E1CeF1N6I0E0J1D1X0I0D0G1K1D1E6E3D0G1T9D0H2E0F2D0C0D2D2E2N3G2E0F1C5CdW4O0E0Y0R1K0E0F6D0E0D1F1L6X0E0Y0L0G1K0E0F6D4E0F1L0EbO0E0CA0E0H3R1BB0E0T2Z0K0C1I2C3H",
  "0C0J5L1EbCH3BE10D0C0G0Z0C0Y1G0C0I0L1FvCV0BL3BO0BL0Q0O10HR0C4C1OO0F1I0C0F1BQ0F1BI0F1I0C0F1Q0CG0F1CQ1BH2BB5DJ1H1YR0BD2DM6X8Z8VbO0E0DbDR1L5L5BB5DM6BS4CT9BG0N3N3C2BR1GaBT3BB5M2CL1CO0BE1M5L5P1BV1NjDA0GL7CJ2Q2CL4BS1M7BS4UP1H1BN1H1J0C0C0C0BG1CC0Q0P1H0U1E0K0P1V2C6CD4J1BC0CBbBIeFL3ZRlMkBPjCPL1OT4BU0C4C1CF6Dd",
  "Z8I0I0I0I0I0I0I0I0EX1CuBB0DMbIH15CN0DJ1EA4BS0DR0DJ9BW0QD0F0R0BQRT2CE8NLjHD7IP3CdCJ2L5CF7CT7N5ENaBF2DB0M3BI0CE8P1L1EAnBD9H1H1H8I0I0CJ3EX1L5QNTbY3BY6irOD1ED11IbG4BB0G0C0D0D0ZBvBJ0H6R0BI1U0F3G0FG1C0HJ2H1H1H1E2I0IgN0BB0U0D0Q1PxEU4E3BU2DL0O2C1aBV3lBE2BYeBD3BL8BF4BS4BF0BM3P15GD1L5BL3BL3BP7CBaN0Q0I0D0M0Q0I",
  "0D2CBbMA8X9JnH0BR0K1wH1C0BT0D2C1Y0CV7K1bU0D4BI2BC4BC11CF3V1BZ0D4J0E0BE1E3L6K6CNvBO3N8CD2BE1BC4BB6FbI27CW1iCAcCA6BV7L5BN2BE7D5rBG0BR0E1DfH7KwBV7BRlBB11BDjY8DB3BL8CL0GcBA6L5CC0T7BO8DT0VaT0BW1pI0C0F0Q0M5CI4L5F0J1D1X0I0D0G0L1D1E1C5C4I1I2GaL0C1C0BN0L0C1C0F0L0D7DsDP0GtCV7L4lCD1BNxCSaL5OiCH5L5VrBC1Q3Y54CJ2",
  "rDGbJ1C1J0D0BF0D1N8L1xJ1BV1MqCV7DGcCW6L2dJ2fBJdL5K0BU0P9BE2BH1X0P20I0D0BT2C0D0K7L5H0D0BM0D0H6L5BT3L6tBA6S0BQ2BE2cCeBZcBJO2tEI0GaHPbMA1s8DWcBPHfX9FXS4WM5a0CH1c5VY6BG0L3DE0L5BF1H9CT9L0I0W4UbzCH5hDO4BA1BA17CY3CG6S1rGaI8KXZ14BH2oEMcCCF5m7F0I0D0LGeCsE1CdF7PH1s3EE4O2K6L1J317JU2QV5YeSeBV1Y8EN1nJN9BO1HNkCT3",
  "dVbVbDK8BA3qDI0CU0D1C1D1F0N0C0I0CO0F1J0I0BD0F0G0C2I0ND1LH1BBBeG0QunBG5H5wI0S1I0D0G4CLwC33BU2P1L3D8vBGgCH4CcvBR5xBS3C5bBG0X7D67I0F0D0Q0HQ1R14CZ3L3DlsCR23CK5dF0BC0D0C1C0L0F0C0C5C3C0C0C0E0D0C1C0C0C0C0C0D0C1F0I0F0F0C0L0S4E0G0S1fD7hBT3DXbQ1Q0Q0BMaGS1jBEcBT3K6DdH49BLZ1S2O2IL5N3CeN3CF7L5BP7BF1N3DdK12NH7P1O",
  "2CU0C2T0O2N4FS0EAskCLFDvGMP1IOD1LBMeXZ1whUX15tHIA4MOPupxQTTe2m7JH47bj"]

def droppedLines : List String := [
  "GR0ZY0FIM1CKI1DI4DAQ0DH4G5GKZ0CZMQfJG0GF0CTOY3HWY7BTLJI6n"]

/-- The stretches of characters that are replaced; within a stretch the replacements run along with
the characters. -/
def replacedLines : List String := [
  "GE>wI>,lkC>2pF>w,lgD1>1e>w,ld>qkD>w,mf>1d>33C>1d,6dg,1g>,,1e>1f,,1gCm>68C6>6wBI/n>+9C>2x,ljC>,2y>,B/1>8lD/2>+3C>30,53>,B/3>8yC>jg,32B/m>97C>73B/2>aiC>37C>gjB/1>arC>gk>awC1>gm>b0D>d9>gp>+2>b6C>gw>+3C>+6>h4>bdE>hb>+3C>+3B/2>blC>hs>bsC>hvD>bxC>i0>c0C1>i2B/1>c4C>ia>c9E>+4I>2s,am>,>,>30,2y>,>,>32,>,>,B/7",
  ">cuD/8>+3D>2s,3e>,>,>dxC>b9>cfB/j>e1C>biC/8>f7I>8rp>fwC>be>8rqD>g2C>ao>i1>+3B/4>g7DU>2w>h2>2y>36>hl>+2>+6>3b>3dBG>w,li>,+1>,+3>,mg>,lf>,+8D>gz>30>37>3c>idDO1>lcE>qhBR/1>ohE>+4E>w,qhF>s3F>w,ld>,+7,ld>q4C2>+1C>r0C1>+1Cg>q9C8>qrBK>rb>qa>+6>+d>+8>qz>qu>qoC/b>rdC>qi>+7>+2C>qg>qdC>s8C>qr>sbD2>orBf>uoBv>ts",
  "BX/g>v5K/q>+aC>y7B/6>xuD/1b>+3D11>129BX>+4,136JE>17r,19w>18o,>1c7,>18q,CYD>2tp,2syEY>2x9,2wiBP>2wb,2vt>,+8BV>2yzED>33m,31t,328C>+1,,LJ11>8w0C>+13G>+6BV>3bwBDK5>3xsDFV>tu>+2>+aB1>+3>+1>+8>v7>wuj>5myH16>3bkD2>+19EF>2p>6e>2qC1>2s>d9B7>2vC>33>f7>34>36B1>38>3b>2pB1>gg>5qa>2qB1>2s>gpB1>+2>2vC>2z>31>97>33>",
  "gkB1>5qu>34B1>38>5r1>hb>3a>5r9B2>qaB1>qu>2x>36B1>39B1>qa>+fB1>+5O>u5BJ>gi>2r>gl>6o>gs>2u>gv>+2>+4B2>+3>5tn>il>h9>5tx>in>hd>hcB3>+2>+6B1>+a>bvB1>i1>5r0B1>i3>3eB2>i8>qgCN/22>5xdG>2p,ji>601D>67C/1b>61tK7>+1J5>+gL7>+gJ7>+gJ5>+gM/3>+hJ7>+9R>64g,qh>+1,>+1,>+1,>+1,>+1,>+1,>+1,>64g,>+1,>+1,>+1,>+1,>+1,>+1,>",
  "+1,>+p,>+1,>+1,>+1,>+1,>+1,>+1,>+1,>65c,>+1,>+1,>+1,>+1,>+1,>+1,>+1,>+1l,>+1,>+1,>+1,>+1,>+1,>+1,>+1,>674,>+1,>+1,>+1,>+1,>+1,>+1,>+1,D>+9,>q9,>q4,D>69i,B1>69c>67k>q4>+5,qh>w,lvC>,>,n6>,lk,n6>67o,qh>qf,>q6,D>69y,>67m>q5>67o>q6>+9,qh>w,lv,lc>,,+1>,,n6J1>6a8>67q>q7C>w,lw,lc>,,+1>,,n6J1>6ao>67u>r1>6at>",
  "w,lk,lc>,,+1E>67w,qh>qx,>+5,D>6ba,>67s>r0>67w>r2>qx,qh>w,ld>,lwC>>>>>>>>>>>H>6c0G>w,mrY>E>6cy,6cy>,,6cyC>+3,+3>,,6d1F>x,xC>w,lhJ>1r,1r>,x>x,1rO>6cy,6cy,6cy,6cyI>wR>1c>2xD5>1g>17>6qa>1pB1>14>32B9>1c>17>6qa>1pB1>14C>2p>2t>33>3c>gp>2wB3>2z>34B1>37>3bB1>3dJ>36,37DK>2p,1b,2r>,,37>2r>4w,2rC>2r,1b,33>,,39>",
  "grC>4w,2uB1>2v>2w>>>87>2x>>30B/1>>,33D2>34>36>D>37,31>38,2t,30>,31C>3eC>qxC>3eC>2z>6dB1>2qC>2tB1>>6ku>31>33B3>15c>2xC>2u,2p,3c>qo>qb>>+d>6q9F>2sB1>B1>2xH>1d,6dg,1j>,,1l>,,1d,1c>,,1f>1e,,>1d,,1h>1e,,>1f,,>1g,,>1d,,1i>1h,,>1d,,1k>1f,,>1h,,>1j,,>1d,>2x>,2x>,,2x>,3a>3a>,2x>,,2x>,,,2x>2x,3c>3c>,2x>,,2x>3",
  "0B1>2r>31>2x>,2x>,,2x>,3a>3a>,2x>,,2x>,,,2x>2x,3c>3c>,2x>,,2x>30B1>2r>31E>6mcG>1c,6dg,1fGH>6qz,6qz>,,6qzC>+3,+3>,,6r2JP1>9hkLY8>1d>,1c>,1d>,1e>,1f>,1g>,1h>,1i>,1j>,1k>,1l>1e,1c>14,1d,15>,1e,>,1f,>,1g,>,1h,>,1i,>,1j,>,1k,>,1l,>,1d,1c,15>,,1d,>,,1e,>,,1f,>,,1g,>,,1h,>,,1i,>,,1j,>,,1k,>,,1l,>,1e,1c,V>,",
  "2p,15>,2q,>,2r,>,2s,>,2t,>,2u,>,2v,>,2w,>,2x,>,2y,>,2z,>,30,>,31,>,32,>,33,>,34,>,35,>,36,>,37,>,38,>,39,>,3a,>,3b,>,3c,>,3d,>,3e,Bp>2pBp>>1cBYO>6qz,6qz,6qz,6qzEA>1m,1m,1p>1p,1p>,,1pPE1b>8q8BX>+1dC>h7>5tp>hpD/2>8rsC>gh>hd>gg>+2C>8s3D>+3H>2y>3aB1>fzB/1d>8shJ/1>+9F>+5EV>+32LS>lalDG>vj3N>feo>+14>+e>+9>",
  "+q>+18>+7>+k>+q>g1r>+12>+6>+n>+k>+l>+1h>+l>+b>+4b>+2m>+s>+5>+u>+9>+r>+d>+p>+1g>+i>+r>h5j>+20>hkb>+n>+8>+b>+i>+24>i1c>+1c>+3c>+n>+j>+m>+1i>+3>ijf>+a>+c>+d>+38>+8>+5>+39>+a>+d>+8>+1p>+h>+i>+28>jd4>+1a>+l>jzj>+5>+2b>+g>+d>+l>+13>+5>kc0>+o>+w>l5s>+1u>+n>+1m>+o>+9>+7>+1g>+5>+w>m7f>mju>+c>+5>+4>+8>+i>+2>+",
  "29>+60>+5>n30>+a>+1e>+7>+9>+8>+2j>+7>+6c>+7>+1d>+h>+1b>+6l>+7>+h>ny2>+3i>+6>+52>+2f>+1a>okz>+3p>p4m>+r>+1l>+1f>+1w>+b>+6>+x>+24>+a>pnn>+7>+9>+9>+g>+f>+4>+27>+4>+6>qj1>+u>qww>+c>+n>r5q>+d>+1z>+1a>rp3>+f>+f>+z>+11>+5j>+c>+1v>+6w>+v>+5t>+l>+5>+64>+54>+3h>+6>+5>tiv>+9>+4c>+4a>+3>+1b>+2x>+d>+4>+7>+2q>+y>",
  "+6>+e>+4n>+1f>+4>+53>+3>+j>+70>+1c>+7>+1y>+a>+3>+a>+u>uzp>vat>+a>+12>+m>+8>+a>+4>+14>+4>+h>+5>+d>+r>+f>+8>+1n>+f>+4BR>wC>1aCA>9huC>gg1B1>+3DT>w,9ll>,+1D>9l4,9l6DS>+17,+1qBY1>3cw>+4q>3cyB1>+4qB2>3czB5>+4t>3dmB2>3d2>+rB9>3d5Bk>+2gC1>3dgB1>+4z>+5>+2>+5>+4>+2>3do>+5d>+2B1>3dp>+3B1>+2>+5>+2B4>+2>+7>+4>+a",
  ">+7>+5B1>+4lB2>3fbB1>+19>+4B1>+9>+3>+a>+3E>feo>+3w>fex>h5n>fey>+z>fez>n5e>fh5>ffd>fep>hm1>h80>fjuDT>14,3cw,15>,+2,>,+1,>,+2,>,+1,>,+1,>,+2,>,+2,>,+1,>,+2,>,+1,>,+1,>,+1,>,+1,>,xz4,>,yvs,>,zc4,>,108s,>,10p4,>,115g,>,1224,>,12ys,>,13f4,>,14bs,>,14s4,>,158g,>,15os,>,1654,>,13p8,>,1350,13ic,15>,,16f8,C>",
  ",feo,15>,+3w,>,fex,>,h5n,>,fis,>,g31,>,fer,>,g2z,>,fh9,>,gg1,>,kco,>,m7f,>,ldg,>,kdk,>,ssx,>,h7j,>,k4l,>,kkq,>,kcp,>,ny6,>,glp,>,mm1,>,rs1,>,nz1,>,gc4,>,fkz,>,gos,>,i1y,>,nhf,>,flt,>,rt3,>,ggk,>,nzh,>,fm9,>,pnu,>,+9,>gun>inw>k1z>oenJ>34,38,2t>1e,1d>,1e>,1f>,1g>,1h>,1i>,1j>,1k>,1l>1f,1c>,1d>,1e>,1f>,",
  "1g>,1h>3cwB1>+2B2>+3>+4B1>+2B4>+3>xz4>yvs>zc4>108s>10p4>115g>1224>12ys>13f4>14bs>14s4>158g>15os>1654>14c8,y5c>13p8,13dk>138wC>feo>+3w>fex>h5n>fis>g31>fer>g2z>fh9>gg1>kco>m7f>ldg>kdk>ssx>h7j>k4l>kkq>kcp>ny6>glp>mm1>rs1>nz1>gc4>o2g>n5j>ho3>six>g16>ghc>lig>u11>fm9>g49>l7n>fey>+z>fez>ijq>gkz>gfv>i3b>i1y",
  ">nhf>flt>rt3>ggk>hlo>1f,1i>,1j>,1k>,1l>1g,1c>,1d>,1e>,1f>,1g>,1h>,1i>,1j>,1k>,1l>1h,1c>1d,kco>1e,>1f,>1g,>1h,>1i,>1j,>1k,>1l,>1d,1c,kco>,1d,>,1e,>2w,2v>2t,36,2v>,3a>30,38,2s>9lu>+2>+2>+2B1>+2>+3>+2>+2>+2>+2>+2>+2>+2>+2>+2>+2>+3>+2>+2B5>+2>+8>+3>+3>+3B4>+3>+6>+2B5>+2B3>+7>fl0,gp8>9lu,9n5,9oc,9mw>,+q,",
  "9n9,9lt>,+8,+5,+1>,+9,+h>+2,9mz,+8,9m8>,+14,9mp>+2,9m1,+1e>+2,+g,9m7,9oc,9mx>,+1v,9m3,>+2,9o3,+e>,+9,+13>+1,9lw,+a>,+1x,9mr,9mw>,+4,+13,+1g>+1,,+9>,+6,9ni>+2,9m4>,+v,9oc>9m5,+q,9nu,9oc>+1,+6,9mo,>9m5,+2>,,9m8,9nt,9nk>,,+1d,+j,9mw,9nv>,,+e,9mr,>+3,9nt,9nk>,,,9mw,9o3>9m7,+2,9mk,9lw,9nx>,+2,+1s,+15>+2,",
  "+f,9mh>+2,9nv,+h>,+h,+j>+2,9lw,9m7,9nv>,+27,+i,+h,9nk>+2,9nu,+1e,9m8>+4,+9,9mp>,,+7>+5,+9,9mh>+7,9mf>+2,+1g>9mw,+8>+2,9n2>+4,9mr,9mw>+1,9lw,9ms>+2,+2g,9mj,9o3,9mw>,,+9>9n4,,+14,9nv>+4,9lu,9mh,9mw,9nv>,+d,+1e>,+4>9n7,+1k>+2,9lt,9nt,9mr,9mx>,+2,+j,+5>+1,+w,9mf,9lz,9nv>9n9,+12,+1o>+3,9m7,9mn,9oc,9nv>+2",
  ",+e>,+e,9n6>9nc,+w,9ms>+2,+8,9mh>,+9,9mg>9nd,,+7>+4,9lw,+1g,9mw>9ng,+1z,9mw>9nf,+8>+2,,9mx>9nf,+9,+y>,,+8>+3,9lw,9m7,9nx>,,+1o>,+v,9n3>,+14,9m7>,+8,+8,9nr,9o3>+1,9m7,+1i,+c>,+1n>,,9n4,9oc,9nv>+2,9m4>,,9mw,9o3>,+28,,9nv>+3,,+1>,,+y>+2,9lu,+8>+4,+x,9mw,9nv>,+12>+1,9n8,9oc>,+14,9na,9nv>+1,9nk>,+j,9mw,9",
  "ma,9o3>+3,9mr,>1c,m9l>1d,>1e,>1f,>1g,>1h,>1i,>1j,>1k,>1l,>1d,1c,m9l>,1d,>,1e,>,1f,>,1g,>,1h,>,1i,>,1j,>,1k,>,1l,>1e,1c,>,1d,>,1e,>,1f,>,1g,>2w,34,2p>2s,2p>2p,39>2q,2p,36>33,3a>34,2r>2s,31>,,1e>,,1f>2x,39>inn,jdc>k6l,gp8>hlz,l7n>k5q,lh7>kkq,irz,fmi,ny6>34,2p>32,>qk,>31,>2z,>,2q>31,>2v,>2r,2p,30>2z,2r",
  ",2p,30>34,2u>32,>qk,>,2v>31,>2z,>2w,3e>2z,2w,3e>31,,>2v,,>38,,>qk,30>31,>2s,>2z,>2u,31>32,>qk,>31,>2r,>2z,>31,,1e>2r,,>31,1e>2z,31,1e>31,,1f>2r,,>31,1f>2z,31,1f>31,6qd,37>,,,1e>34,2p>2z,34,2p>31,,>2v,,>36,2p,2s>,,,6qd,37>,,,,,1e>34,37>32,>qk,>31,>34,3a>32,>qk,>31,>2z,>31,>34,3b>32,>qk,>31,>2z,>31,>2",
  "z,qx>31,C>2q,35>2r,2r>,2s>,6qd,2z,2vC>2s,2q>2v,3d>2w,2p>,34>2x,32>2z,2z>,31>,38>30,31>,32>,33,2v>,3c>31,2q>,2x,30>,33,>34,2wC>,34,31>,36>37,>,3a>3b,2q>3a,6qd,31>2p,,>1d,k4l>1e,>1f,>1g,>1h,>1i,>1j,>1k,>1l,>1d,1c,k4l>,1d,>,1e,>,1f,>,1g,>,1h,>,1i,>,1j,>,1k,>,1l,>1e,1c,>,1d,>,1e,>,1f,>,1g,>,1h,>,1i,>,1j",
  ",>,1k,>,1l,>1f,1c,>,1d,>2v,2p,30BRGZ/m>wu9U/d>+kC>ui>+2FD/6>x0jE/u>+4C>J/1>+bC>5tlB/4>x33F>+5C>h1D/1>x3lE/9>+4C>h2>gs>+5>+b>h6C>im>hz>il>xubB/7>x4lC>x3o>hu>5u6B/1>x54C>h0B/7>x59C>bf>hjF>+5P>37>2r>2u>35>x6eD>87>9fBHJ>x0n>xtj>h7>xuaK>i5H27>3vkBDTR1>o0dGR>2u,2u>,2x>,30>,2u,2x>,,30>37,38>,N>12s,12u>,12d",
  ">,+6>+a,+b>12s,12lJ>15u>15cB1>+3B2>+8>+d>+2>17D>161,14s,14x>,,+1BI>15c,15o>19t>>+a>>>>+3>>>>+2>>>>1a2>>>>+5>>>>1a1>>>>1b8>>>>+2>>>>1ac>>>>1ab>>>>+3>>B1>>+1>>>+6>>1ak>>+2>>1ag>>1aw>>1ap>>1bd>>>>+6>>>>+4>>>>1bl>>>>+9B1>>+1>>>+5B1>>+1>>>1by>>>>1ciB1>>+1BI>1bh>>>>1c7>>1c6>>+2>>1c7,19w>+4>>1c5>>+4>>+7>>>",
  ">18p>>17q,17r>,>,1cl>,>,18o>,>,1c7>,>,1c6>,>,+2>,>,+8>,>,>,18p>,>,>1cc>>>>17q,17w>,+1>,18l>,+4>,+1>+2,17w>,+1>,+1>,18l>,+4>,+1>+2,17w>,+1>,+1>,18l>,+4>,+1>+1,17w>,18l>,+4>,+1>+1,17x>,18l>+1,17w>,18l>+1,17w>,+1>,18l>+5,17w>,+1>,+1>,18l>+2,17x>,18l>+1,17w>,+1>,+1>,18l>+1,17x>,18l>+1,>+1,17w>,18l>+1,17",
  "w>,18l>+7,17w>,+1>,+1>,18l>,+4>,+1>+1,17x>,18l>,+4>,+1>+1,17r>,+5>,+1>,+1>,18k>,+1>,+4>,+1>+1,17w>,+1>,+1>,18l>,+4>,+1>+1,17w>,+1>,+1>,18l>,+4>,+1>+1,17w>,+1>,+1>,18l>,+4>,+1>+1,17w>,18l>,+4>,+1>+3,17w>,+1>,+1>,18l>,+4>,+1>180,19s>+1,>18p,>w,18s,18x>,+1,>,+1,>,+1,>,+1,>,+1,19s>17q,181>,+1>,18l>,+1>,",
  "+3>,+1>+2,181>,+1>,18l>,+1>,+3>,+1>+2,181>,+1>,18l>,+1>,+3>,+1>+1,181>,+1>,18l>,+1>,+3>,+1>18h,18p>,+1>+1,18p>,+1>+1,17r>,18k>,+1>,+4>,+1>+1,18l>,+4>,+1>+1,17r>,18l>+1,181>,+1>,18l>,+1>,+3>,+1>+3,19s>+1,181>,+1>,18l>,+1>,+3>,+1>17q,17w>,+1>,+1>,18l>,+2>+2,17w>,+1>,+1>,18l>,+2>+2,17w>,+1>,+1>,18l>,+2",
  ">+1,18l>+1,17x>,18l>+1,17w>,18l>+1,17w>,18l>+5,17w>,+1>,+1>,18l>+2,17x>,+1>,18l>+1,17w>,+1>,+1>,18l>+1,17x>+1,18l>+1,17w>,18l>+1,17w>,18l>+7,17w>,+1>,+1>,18l>+1,17x>,18l>+1,17w>,+1>,+1>,18k>,+1>+1,17w>,+1>,+1>,18l>,+2>+1,17w>,+1>,+1>,18l>+1,17w>,+1>,+1>,18l>,+2>+1,17w>,18l>,19s>+3,17w>,+1>,+1>,18l>,",
  "+2>17q,18l>,+2>+2,18l>,+2>+2,18l>,+2>+1,18l>,+2>+8,18l>,+2>+1,18l>,+2>+f,18k>,+1>+1,>+2,>,+2>+4,18l>,+2>18g,+7,18x>,+1,>,+1,>187,18p>,+1>+2,18p>,+1>+1,18p>,+1>183,18p>,+1>+1,18p>,+1>17x,18p>,+1>17w,18p>,+1>+2,18p>,+1>+7,18p>,+1>+1,18p>,+1>184,17w>,+1>,+1>,18l>,181>183,>+2,>+1,>+1,18p>,+1>+2,18p>,+1>",
  "+1,18p>,+1>183,18p>,+1>+1,18p>,+1>17x,18p>,+1>17w,18p>,+1>+2,18p>,+1>+7,18p>,+1>+1,18p>,+1>184,17w>,+1>,+1>,18l>,181>183,>+2,>+1,>184,17w>,+1>,+1>,18l>183,+2>+1,>+3,18l>183,17w>,+1>,+1>+1,17w>,+1>,+1>+3,18l>+1,>17r,+6>,T>+3,17w,18l>,+1,17w>,,>,,18l>,+1,>,18l,17w>,,+1>,,+1>+2,,17x>,,>+1,,18q>,,18p>+6",
  ",17x,17w>,17w,+1>,,18p>,18l,17x>,,>,,17w>,,18l>,,>+2,17x,17x>,,>,18l,18l>184,17x,>,,>,17w,+5>,18l,17y>,,>,,18l>,,>+2,17x,+4>,+1,18l>,,>+1,18l,17x>,,>,,18l>,,+5>+2,17w,18l>,18l,>,,>,,+4>+1,,18l>,,+5>,,18p>+7,17y,18l>,,>+1,18l,17x>,,18l>+2,17x,>,,+5>,,18p>,17w,17w>,,>,+2,18l>,,>,18l,17x>,,>+1,17x,17w>",
  ",,18l>,,+5>,17w,17x>,,18l>,+2,17w>,,18lD>,17w,17y>+2,18l,17w>,,18l>18m,17x,>,,+4>,17w,18l>,,>,,+4>,18l,+1>,,18p>+4,,18l>,,>17s,17y,+5>+2,17w,>,,18p>,+2,+1>,,18p>,18l,+1>,,18p>+2,,+1>,17x,18p>,18l,>+7,17y,>+2,17x,+1>184,,>+2,,>+e,17w,>,18l,>+6,17x,>,17w,>,18l,>18l,,>18i,,>+4,17x,>18i,18l,17x>+2,17x,1",
  "8l>189,18l,+5>+a,,>+3,17w,17x>18l,+2,18q>18k,17w,18l>18j,18l,>+1,17w,>+2,,17x>17w,+1,18q>+1,17w,>18l,,>18h,18l,>17s,17x,>18j,18l,18l>189,17w,>185,18l,>183,17y,+5>18m,17w,BP>185,18k,1ci>+d,,>17r,,18k,18n>,18j,17s,181>18l,17x,18l,17z>185,18k,189,18l>181,183,+f,18k>+8,18k,+2,+3>+f,183,18k,18l>185,18k,+",
  "5>,,,w,17r,18k,18k,18n,w,189,18k,18q,18n,w,18o,183,18k,18l>17w,,w,17w,18k,17r,,>+5,1cc,17r,18kU>18>9hdC1>1m>x>1rB1>9hyZ>6c4>6c3>2n>B1>14>3f>3hB1>9hwB1>9hsB1>9hmB1>9hkB3>+4D>2j>2l>w,lh>,>,>,>2n>>>18>9hdD>1n>1m>1r>x>6c4B1>14>3f>3hB1>9hw>z>12B1>16>19>1o>1q>1pC>2kB1>10>1sF>w,18r>18g,>w,+1C>,+1C>,+1>18g,",
  ">w,+1>18g,>w,+1>18g,>w,+1>18g,>w,+1>18g,B1>17lB1>+1B1>+1B1>+1B1>+1>+1>B1>B1>+1>+1>B1>B1>+1>+1>B1>>+1>B1>>+1>B1>>+1>B1>>+1>B1>B1>+1B1>+1B1>+1B1>+1>+1>B1>>+1>B1>>+1>B1>>+1>B1>>+1>B1>>+1>B1>>+1>B1>>+1>>>+7>>B1>>+1>B1>>+1>B1>>+1>B1>>+1>B1>>+1>B1>>+1>B1>B1>+1B1>+1>+1>>>18k,17m>,>,+1>,>,+2>,>,+2>,Fv>xBp>2",
  "pBz>2jB1>879>1aB1>9ho>9hd>+6y>9o2>9lt>+2>+2>+2>+2>+1m>+2>+2>9mr>+1l>9lu>+2>+2>+2B1>+2>+3>+2>+2>+2>+2>+2>+2>+2>+2>+2>+2>+3>+2>+2B5>+2>+8>+3>+3>+3B4>+3>+6>+2B5>+2>+7>+4B1>9llC1>3cw>+4q>3cyB1>+4qB2>3czB5>+4t>3dmB2>3d2>+rB9>3d5E5>+2gD5>+6D5>+6D2>+6E1>4i>4s>w,lg>4m>4l>6g9C>7b6B3>6mo>7fk>+17BOC13>1fe0FHz>",
  "+4wGBa>+5bCe>+cC6>+gC1>+8SY1>k0>6e>ih>gjC>ir>xuu>it>isB1>gm>5u9>go>+6>ix>h0>gy>gw>ij>87>ik>h3>hwB1>iy>h8>2mmc>x3i>ha>2mmd>i6>2mme>6wB1>hi>35>hm>2mmgB1>hp>+3>iw>iu>xuv>iv>i0>8s1C>i7B1>ip>igB2>cg>2mmi>+kBVA1e>1h34GCl>+4wEGPv>+28gBGJXv>20dcCNo>+2jBJQSp>2pB9>1cBRJ>2jx4,2jxh,2jxq>,,+1>,,+1>,,+1>,,+1DL>+2",
  "p,,2jxq>+1,,>2jzt,,+1>+1,,WEp>2pBp>Bp>B6>Ch>2xBp>2pBp>>C1>2rD>2vD1>2yD3>32C7>37B3>2pC>2uC6>2wCa>34Bp>2pBp>B1>C3>2sD7>2yC6>37Cp>2pB1>C3>2sC4>2xC>33E6>37Cp>2pBp>Bp>Bp>Bp>Bp>Bp>Bp>Bp>Bp>Bp>Bp>Bp>>8h>frDg>q9>+7B6>+b>6pzBg>q9>qrB6>>6pu>qd>+3>+2>+c>qp>qoBg>q9>+7B6>+b>6pzBg>q9>qrB6>>6pu>qd>+3>+2>+c>qp>qoBg",
  ">q9>+7B6>+b>6pzBg>q9>qrB6>>6pu>qd>+3>+2>+c>qp>qoBg>q9>+7B6>+b>6pzBg>q9>qrB6>>6pu>qd>+3>+2>+c>qp>qoBg>q9>+7B6>+b>6pzBg>q9>qrB6>>6pu>qd>+3>+2>+c>qp>qo>rh>D9>1cB9>B9>B9>B9>DCR8>tsB2>+aBa>+4>+dB1>+2>ww9>yh>uu>+2>yx>xb>y7B8>tsB1>+aB1>+4>+3B5>+2B1>+7>wh>uu>ut>+a>x7>wup>xdDGLx>2omaBVZ1>17r>+5>+3C>18o>182>1",
  "7x>+a>18qB3>18j>183>+6>+8>185>+d>181>+3B1>17u>+4>+2>+6>+2>+2>19q>1bu>1b5>19rC>17s>+4C>18nD>17xC>18qB3>18j>183>+6>+8>185>+dC>184B1>17u>+4C>+8C>+4H>17wF>+1C>18qC/1>18k>183>+6C>185>+dC>184D>17yC>+8C>+4C>1buC>19rC>17s>+4C>18nD>17x>+a>18q>18jC1>+2>183>+6>+8>185>+dC>184B1>17u>+4C>+8>+2>+2>19qC>1b5C1>17r>+",
  "5>+3B1>18n>182>17x>+a>18qC2>18k>183>+6>+8>185>+d>181>+3B1>17u>+4>+2>+6>+2>+2G>17s>+4>+3C>18o>182>17x>+a>18qC2>18k>183>+6>+8>185>+d>181>+3B1>17u>+4>+2>+6>+2>+2WK>1c,18>1d,>1e,>1f,>1g,>1h,>1i,>1j,>1k,>1l,G>14,2p,15>,2q,>,2r,>,2s,>,2t,>,2u,>,2v,>,2w,>,2x,>,2y,>,2z,>,30,>,31,>,32,>,33,>,34,>,35,>,36,>,3",
  "7,>,38,>,39,>,3a,>,3b,>,3c,>,3d,>,3e,>9hw,37,9hx>2r>36>2r,2s>3b,3eCp>2p>2w,3a>31,>37,2s>,37>34,34,3a>3b,2rBB>31,>,2s>,36BK>2s,2yEI>9kr,9jf>+1k,+2w>+2O>jez>i1j>gjw>9mv>fik>hlm>r8j>hm1>fj8>k68>mch>k2h>g99>ivg>g3x>k34>g7x>oqq>n4v>rs9>hkg>gmx>lxw>jh1>+5c>feo>+9>si2>ijq>ffx>gkz>jk7>rxs>jf7>o01>+6x>glk>lt",
  "s>kcp>kco>n5f>gaa>gxi>sp9F>9hw,kdo,9hx>,fex,>,+3n,>,i2x,>,m9l,>,jf7,>,nh3,>,gd9,>,k0n,I>ivr>gkvDQT9>1cDRNC1>gedDJ1>ijlEL1>la2DB1>nj2GG1>t07"]

def refused : RangeTable := .ofLines refusedLines

def dropped : RangeTable := .ofLines droppedLines

def replaced : RangeTable := .ofLines replacedLines

/-- What a character of a domain name stands for, or nothing if it is refused. ASCII letters lose
their case, and what decomposes for good stands for its parts. -/
def domainChar? (c : Char) : Option (List Char) :=
  if c.toNat < 0x80 then some [c.toLower]
  else if refused.holds c then none
  else if dropped.holds c then some []
  else
    match replaced.find? c with
    | none =>
      match decompositions.find? c with
      | some s => some (if s.reversible then [c] else s.target.map Char.ofNat)
      | none => some [c]
    | some s =>
      match s.target with
      | [code] => some [Char.ofNat (code + (c.toNat - s.first))]
      | codes => some (codes.map Char.ofNat)

end Unicode

end Switchboard
