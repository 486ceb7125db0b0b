import Switchboard.Unicode.RangeTable

/-!
# Decompositions

The characters that stand for a shorter one and a mark, or for another character.
-/

namespace Switchboard

namespace Unicode

def decompositionLines : List String := [
  "HK>1t,lc>,+1>,+1>,+1>,+5>,+2C>1v,mf>1x,lc>,+1>,+1>,+6>21,lc>,+1>,+1>,+6C>26,lf>27,lc>,+1>,+1>,+1>,+5D>2d,lc>,+1>,+1>,+6>2h,ldD>2p,lc>,+1>,+1>,+1>,+5>,+2C>2r,mf>2t,lc>,+1>,+1>,+6>2x,lc>,+1>,+1>,+6C>32,lf>33,lc>,+1>,+1>,+1>,+5D>39,lc>,+1>,+1>,+6>3d,ldC>,+7>1t,lg>2p,>1t,+2>2p,>1t,mg>2p,>1v,ld>2r,>1v,+1",
  ">2r,>1v,+5>2r,>1v,+5>2r,>1w,>2s,D>1x,lg>2t,>1x,+2>2t,>1x,+1>2t,>1x,mg>2t,>1x,lo>2t,>1z,le>2v,>1z,+4>2v,>1z,+1>2v,>1z,mf>2v,>20,le>2w,D>21,+1>2x,>21,+1>2x,>21,+2>2x,>21,mg>2x,>21,ljE>22,le>2y,>23,mf>2z,C>24,ld>30,>24,mf>30,>24,lo>30,F>26,ld>32,>26,mf>32,>26,lo>32,E>27,lg>33,>27,+2>33,>27,+5>33,D>2a,l",
  "d>36,>2a,mf>36,>2a,lo>36,>2b,ld>37,>2b,+1>37,>2b,mf>37,>2b,lo>37,>2c,mf>38,>2c,lo>38,D>2d,lf>39,>2d,+1>39,>2d,+2>39,>2d,+4>39,>2d,+1>39,>2d,mg>39,>2f,le>3b,>2h,>3d,>2h,+6>2i,ld>3e,>2i,+6>3e,>2i,+5>3e,BI>27,+f>33,O>2d,>39,BD>1t,lo>2p,>21,>2x,>27,>33,>2d,>39,>64,lg>70,>64,ld>70,>64,+b>70,>64,lc>70,C>5",
  "g,+4>6c,>fa,>+1,>5i,>6e,D>1z,+8>2v,>23,>2z,>27,mg>33,>dm,lg>+1,>c7,+8>ia,>2y,E>1z,ld>2v,D>26,lc>32,>5h,+1>6d,>5i,>6e,>60,>6w,>1t,+e>2p,>1t,+2>2p,>1x,lr>2t,>1x,+2>2t,>21,lr>2x,>21,+2>2x,>27,lr>33,>27,+2>33,>2a,lr>36,>2a,+2>36,>2d,lr>39,>2d,+2>39,>2b,me>37,>2c,>38,D>20,lo>2w,H>1t,lj>2p,>1x,mf>2t,>5y,l",
  "g>6u,>5x,>6t,>27,+3>33,>fi,lg>+1,>2h,>3d,KJ~lc~+1C~lv~lk,ldBW~jdK~1nH>4o,ld>pd,~53>ph,ld>+2,>+2,C>+6,C>+6,>+4,>qy,BA>pl,+7>+c,>+c,ld>+4,>+2,>+2,>qz,BA>qh,+7>+c,>qn,ld>+6,>+4,F>+9,>,+7BS>t1,lc>,+8C>sz,ldE>sm,+7F>t6,ld>t4,lc>+b,+6L>t4,BG>u0,X>tx,lc>,+8C>tv,ldE>uu,+7F>u2,ld>u0,lc>+b,+6Y>vo,+9>+1,CW>t2,",
  "li>ty,O>sw,>ts,>sw,+2>ts,D>t1,li>tx,D>yg,+2>+1,>t2,>ty,>t3,>tz,D>t4,lg>u0,>t4,+4>u0,>ta,>u6,D>yw,>+1,>tp,>ul,>tf,lg>ub,>tf,+4>ub,>tf,+3>ub,>tj,lk>uf,D>tn,>uj,LL>17r,18z>,+1>18o,>17r,+1>18q,190FY>1cl,C>1c1,R>1ci,XA>1t4,1toI>+8,D>+3,BK~1sl,~+1,~+1,~+5,~+5,~+1,~+9,~+4,EE>1xj,1xa>,1xzQ~1wh,1x8~+1,C~+d,D",
  "G~20i,20sD~+6,BJ~1zq,~+1,~+5,D~+f,JA>287,28mD>,27y>,28nQ~275,27w~+1,CD>2aa,2c7CC>2bq,2bi>+1,>2bq,2c7EU>2fa,2fqEQ>2in,2j9H>+7,>,+1C>,2iq>+4,2j9EX>2me,2m6>+1,>2me,2mvFM>2qh,2q2C>,+5>+3,2q2>2qh,2qnNT~30i,33rK~+a,F~+5,F~+5,F~+5,N~30g,33pK~31t,31uC~,+2~33m,+cC~+1,J~31t,S~32q,33rK~+a,F~+5,F~+5,F~+5,N~32o,",
  "33pEF>+45,+3dEDC>5c5,5dhC>+2,C>+2,C>+2,C>+2,E>+4,BP>+15,C>+2,D>+2,>+1,C>+3,BAZ>1t,md>2p,>1u,lj>2q,>1u,mb>2q,>1u,+e>2q,>5j,ld>6f,>1w,+6>2s,>1w,mb>2s,>1w,+e>2s,>1w,mf>2s,>1w,+6>2s,>7m,lc>+1,>7m,+1>+1,>1x,ml>2t,>1x,+3>2t,>fc,li>+1,>1y,+1>2u,>1z,lg>2v,>20,+3>2w,>20,mb>2w,>20,lk>2w,>20,mf>2w,>20,+7>2w,>2",
  "1,+2>2x,>5r,ld>6n,>23,>2z,>23,mb>2z,>23,+e>2z,>24,mb>30,>5yu,lg>+1,>24,mp>30,>24,ml>30,>25,ld>31,>25,+6>31,>25,mb>31,>26,lj>32,>26,mb>32,>26,+e>32,>26,ml>32,>5x,ld>6t,>5x,+7>6t,>98,lc>+1,>98,+1>+1,>28,>34,>28,+6>34,>2a,>36,>2a,mb>36,>5zu,lg>+1,>2a,mp>36,>2b,lj>37,>2b,mb>37,>9m,lj>+1,>+5,>+1,>602,>+1",
  ",>2c,>38,>2c,mb>38,>2c,+e>38,>2c,ml>38,>2d,mc>39,>2d,+c>39,>2d,ml>39,>a0,ld>+1,>+1,+7>+1,>2e,lf>3a,>2e,mb>3a,>2f,lc>3b,>2f,+1>3b,>2f,+7>3b,>2f,lj>3b,>2f,mb>3b,>2g,lj>3c,>2g,+1>3c,>2h,lj>3d,>2i,le>3e,>2i,mb>3e,>2i,+e>3e,>2w,>38,lk>3b,+2>3d,C>an,ljF>1t,mb>2p,>1t,ll>2p,>5e,ld>6a,>5e,lc>6a,>5e,+9>6a,>5e",
  ",lf>6a,>61s,le>+1,>76,ld>+1,>76,lc>+1,>76,+9>+1,>76,lf>+1,>61s,+3>+1,>1x,mb>2t,>1x,ll>2t,>1x,lf>2t,>5m,ld>6i,>5m,lc>6i,>5m,+9>6i,>5m,lf>6i,>62g,le>+1,>21,+7>2x,>21,mb>2x,>27,>33,>27,ll>33,>5w,ld>6s,>5w,lc>6s,>5w,+9>6s,>5w,lf>6s,>630,le>+1,>bk,ld>+1,>bk,lc>+1,>bk,+9>+1,>bk,lf>+1,>bk,mb>+1,>2d,>39,>2d",
  ",ll>39,>bz,ld>+1,>bz,lc>+1,>bz,+9>+1,>bz,lf>+1,>bz,mb>+1,>2h,lc>3d,>2h,mb>3d,>2h,ll>3d,>2h,lf>3d,H>q9,lv>,+1>64g,lc>+1,>64g,+1>+1,>64g,n6>+1,>pd,lv>,+1>64o,lc>+1,>64o,+1>+1,>64o,n6>+1,>qd,lv>,+1>64w,lc>+1,>64w,+1>+1,D>ph,lv>,+1>654,lc>+1,>654,+1>+1,D>qf,lv>,+1>65c,lc>+1,>65c,+1>+1,>65c,n6>+1,>pj,lv>",
  ",+1>65k,lc>+1,>65k,+1>+1,>65k,n6>+1,>qh,lv>,+1>65s,lc>+1,>65s,+1>+1,>65s,n6>+1,>pl,lv>,+1>660,lc>+1,>660,+1>+1,>660,n6>+1,>qn,lv>,+1>668,lc>+1,>668,+1>+1,D>pr,lv>,+1>66g,lc>+1,>66g,+1>+1,D>qt,lv>,+1>66o,lc>+1,>66o,+1>+1,>66o,n6>+1,C>px,lwC>66x,lcC>,+1C>,n6>qx,lv>,+1>674,lc>+1,>674,+1>+1,>674,n6>+1,>",
  "q1,lv>,+1>67c,lc>+1,>67c,+1>+1,>67c,n6>+1,>q9,lc~q4>+9,lc~q5>+a,lc~q6>+b,lc~q7>qn,lc~+d>qt,lc~+8>qx,lc~+5D>64g,n9>+1,>+1,>+1,>+1,>+1,>+1,>+1,>+1,>+1,>+1,>+1,>+1,>+1,>+1,>+1,>+h,>+1,>+1,>+1,>+1,>+1,>+1,>+1,>+1,>+1,>+1,>+1,>+1,>+1,>+1,>+1,>+1d,>+1,>+1,>+1,>+1,>+1,>+1,>+1,>+1,>+1,>+1,>+1,>+1,>+1,>+1,>+",
  "1,>q9,li>,lg>67k,n9>q9,>q4,C>+5,n6>69i,+3>pd,li>,lg>,lc~p2>+b,n9C~qhD>4o,n6>67o,+3>qf,>q6,C>+9,n6>69y,+3>ph,lc~p4>+f,lc~p5>+e,n9>69r,lc>,+1>,n6>qh,li>,lg>qy,lc~pcD>qh,n6>qy,>pl,li>,lg>,lc~p6C>6bi,lc>,+1>,n6>qt,li>,lg>+6,lc~q8>qp,lv>,+1>+4,n6>+6,>px,li>,lg>,lc~pa>pt,lw>4o,lc~p1~2oD>67w,n9>qx,>+5,C>qx",
  ",n6>6ba,+3>pr,lc~p8>q1,lc~pb>q1,n9~50D~6bm~+1LH~q1E~23~5hEH>6mo,mw>+2,T>+2,BF>+1o,>+4,>6oi,CB>+1d,F>+5,D>+3,Y>+o,C>+2,BB>+n,D>+7,D>+2,C>+3,X>1p,C>6sh,L>6rx,>1o,>1q,>6sk,>+1,D>+d,>+1,D>+3,>+1,H>+3,>+1,D>+7,>+1,D>+3,>+1,BJ>+r,>+6,>+1,>+2,BX>6t8,>+1,>+k,>+1,H>+w,>+1,>+1,>+1,CI~9hk~+1CXU~8gt,mwCBO>9jf,9",
  "llC>+2,C>+2,C>+2,C>+2,C>+2,C>+2,C>+2,C>+2,C>+2,C>+2,C>+2,D>+3,C>+2,C>+2,H>+7,>,+1C>+3,9ll>,+1C>+3,9ll>,+1C>+3,9ll>,+1C>+3,9ll>,+1X>9ja,9llK>+2f,O>+e,C>+2,C>+2,C>+2,C>+2,C>+2,C>+2,C>+2,C>+2,C>+2,C>+2,C>+2,D>+3,C>+2,C>+2,H>+7,>,+1C>+3,9ll>,+1C>+3,9ll>,+1C>+3,9ll>,+1C>+3,9ll>,+1X>9ly,9llD>+21,>+1,>+1,>",
  "+1,E>+b,CXTI~rpk~kc4~s7e~rt4~lw1~fg2~gkl~vj0~~hn5~ssx~gw7~hmw~jcm~ne1~p6t~qin~qt6~r20~sjz~kxu~ljv~mah~mvy~q4d~sq2~uep~fia~ghh~l50~mjf~qi5~v8e~ifk~m3v~qfh~r50~jih~pnc~qvz~iq2~kd3~lm2~mpo~slq~fpi~g53~gda~jwk~l3n~mj4~nhj~pa9~qh2~+2e~s1b~tv6~upb~v7e~nt8~+6r~otc~q15~t1g~vb3~rfa~hjz~iro~okg~pdq~mle~nuy~rs",
  "y~ttj~hjs~i8y~kyb~lp6~lxr~oq7~oxj~tor~gcy~pe3~g64~g5o~o4c~ou6~q29~tpx~rk0~jin~kxu~rge~fg9~i5j~iz6~mtj~n74~gev~nwb~fr3~iw9~ff1~lho~k1k~opu~gjn~hge~ni9~q4p~re2~la2~sds~lfs~jjy~put~jog~n6t~fji~g2x~+2o~kn5~oo7~prj~rf6~ssv~gdx~gn6~ho3~ir0~k3p~m4e~nxm~tkd~ui2~vbr~+1j~gbf~kau~l87~sbm~ino~j9s~+34~jve~lyb~md",
  "l~n0p~o22~ovo~pdb~s9y~q9a~sgz~t3e~g7r~+3w~gql~ma0~r0i~re2~iq1~iyd~jnf~l9q~oji~mt1~fl0~h6h~i5j~iii~izg~muq~+53~p7e~+4s~svo~tti~+2a~+5s~fpn~o1a~ss4~trs~j4x~fie~fyy~i5q~+29~k2h~kxu~mha~ncy~q9o~sjg~vil~k94~tny~gax~kfv~+3c~lkx~luk~mx5~n6h~nsb~opc~u3i~g31~je6~tq0~fu3~ie1~lpm~sa2~ivf~j7o~kk7~mtj~tqe~g89~gl",
  "r~i91~k5v~kem~ko8~lid~mx2~naa~p6h~r0v~+i~sss~tsy~gfz~lve~gm5~mhc~n14~qgq~tr7~uvr~vbz~kgn~lor~pns~o97~+2d~olu~mo0~m8p~riw~fk0~px2~g8q~g7b~ip2~jir~onq~i2t~ljy~kac~saj~qx8~tot~r63~iqb~g1s~gxsD~hgaC~k8kD~g66~mqy~ngq~ny4~+y~+7~+16~tw6~on2~p8dC~qheC~rg8D~shk~+5hE~u7j~+d~+18~v5g~sm6~trr~fqm~fzb~+2u~gcp~+r~",
  "+31~gwt~+2x~+2q~hfk~+2w~i90~+a~j2s~+5w~+12~+2s~k0f~+43~+4v~kn9~lmf~+4j~lya~mem~+59~mxu~ntd~+4t~+b~nyg~+8~+6~+7~+1c~+1~+4y~+1t~og0~ovo~+l~+1k~p6a~+43~pnx~+3w~~q53~r2o~+3q~rgh~+1k~rtf~+1h~sdy~+3m~tsz~u0v~+1o~j1x~36cu~pp4D~ffq~g51~g2w~fpc~g1x~+1n~gcn~+1f~gwt~gut~+1w~+21~hga~+2h~+41~+g~huq~+5i~iqa~+7~+4",
  "0~+1w~j4o~+3a~j60~+3q~j8g~+42~+1u~jpg~+2g~+1i~k0m~k8k~+4j~+4~+1n~l89~+1t~lkx~lwb~lvv~+2f~+70~mem~nmv~mk5~+3e~+3f~n01~+45~+1h~+6a~+2~+4r~+h~+p~+2e~nk0~nv0~o8h~og0~+57~+68~+49~p4u~+5j~pxu~+4d~qrd~r41~+1x~+g~ren~+1l~rez~+1i~rge~rfx~+24~+29~ruw~sag~sj6~srd~+65~tq4~+2v~+37~+3p~+10~+c~+1c~umq~vj0~313e~313",
  "8~+2a9~brx~cns~+x~39e1~+22v~3i6r~vgj~+23CQ~15l,14kC~16a,+3L~161,+a~,+1~1dmx,14x~,+1~15c,14n~,+1~,+4~+1,~+1,~+1,~+1,~+1,~+1,C~+2,~+1,~+1,~+1,~+1,C~+2,C~+2,~+1,C~+2,~+1,C~+2,~+1,~+1,~+1,~+1,~15h,14p~15d,+6~+a,~+9,DZF>1fpu,ljBB>+8,EBM>+24f,1hveC>+2,P>+a,FB>+3w,+31>+1,UU>+et,+ev>,+pCD>+1n,+36C>+2,1igrJ>",
  "+7,+7D>+5,+7CA>+1e,1igyC>,1igo>,+hJJ>+6v,+6p>,1inkC>,+dJS>+73,+6q>+1,BIJ>+os,+oxBBGB>1xr2,1xr2>,+b>,1xr3>+b,>1xr2,+1>+3,1xr3>+1,>1xr5,+1EQQ>+2fa,+2fb>206b,>+6,BLWE~2jx3,2jxh~+1,~+7,+9~,+1~,+1~,+1~,+1DJ~+2i,2jxh~+1,~+1,+9~+1,~2jzv,+1~+1,EHLG~fgd~fg8~+9~2tcy~fog~+26~+d~+1z~+3c~+v~+26~fyn~ae6~2ud6~g25~",
  "+7~+g~+j~2u58~aex~g2v~+12~2u6j~g47~+d~fkc~g4s~+9~3ly7~g6t~+e~afz~g8r~+b~+18~+5~ahh~gcn~+2~+r~+m~+b~+1~+h~+1e~+8~+9~+p~+a~+2~~~2v58~m7k~gju~+l~2vdv~gkr~+6~+l~+48~gmw~+g~+w~+1m~+2c~+q~+1v~+g~+x~~+l~+i~+8~+f~h7a~gzq~h7b~h1t~+z~g7b~hke~hce~+12~+p~haj~+4n~hf5~+3f~2x9g~hki~+5~+f~+k~+8~+1s~2xm0~+1u~hrg~+1b",
  "~+c~hqw~+3y~aum~+e~hzc~+1i~~2y88~i4j~+l~+f~+c~2yhk~i67~+7~itv~i76~ayp~i8w~+e~+2a~ia5~2z1g~if7~2z1i~ige~igb~+h~+2t~+1~b3j~ikd~+17~+l~+18~b4y~2zr7~b5o~ipc~+3~+3~+k~3pg2~iri~3035~~poh~isi~~b7r~335k~3cgq~iua~+9~b8j~ivu~+1f~+a~+y~+3s~bay~ba4~j2s~30t0~j47~+3l~+4~+2~j7w~+1a~+k~+10~jac~+b~+1b~+k~+4~+q~+b~+1",
  "u~+2c~+z~+3g~31n0~jlp~jjw~+30~+r~+2p~31td~js2~jph~jop~bhq~ju1~+l~+v~juf~bjg~k0f~+t~32mi~k4j~kc8~k7d~bo9~k9d~bns~bms~g42~+3~kcg~k9o~pf1~deh~kd3~+4~+6~+1p~ker~33cz~bpl~kje~kg5~+5p~+1f~33hp~kni~kkf~+6t~brx~ksi~+2p~+1z~+5a~33xf~l3v~bvc~l5t~34br~l78~bwu~l82~+19~+r~+1~34p9~2yvf~34sa~le6~354s~lhb~+e~lev~+4",
  "v~+14~+1l~lkx~+14~+f~+d~357i~lkk~+6z~+1r~c37~lvv~lvr~35jl~lq1~m0e~35ni~+1c~m2u~+37~m5a~m57~c5y~m6i~+1f~m7r~+1i~2u5h~mdh~368z~mfw~36i3~mjs~+d~+r~36yw~mm8~+l~3779~+67~mt6~+h~cdo~mud~ce0~~myv~+l~+l~+k~+1x~cgr~n50~386u~n5q~389e~n74~2zrz~nbk~38v5~+n~+3w~cn0~+c~nhw~394j~394i~+13~+q~nj2~+1~~+17~cop~nm3~cp2",
  "~+28~39r1~nri~+1q~+1s~ctf~3a5i~nyu~3a8q~+17~o0f~+2k~cvj~o5c~+a~+5~3at8~+8b~~oa6~d1e~3b8r~og6~+3~d2f~3beo~onm~d5s~oo8~oo3~+t~3c06~orn~d8h~ouf~+1n~+1v~d9w~3ciw~+v~dax~3cnt~p6i~3cqm~p79~+2t~+b~3d22~+21~pcw~3d7s~pdc~33a7~ded~pf6~+29~dfv~pj2~hx1~3dlz~+e~33bn~+9~poh~+3~sda~dij~psh~psb~+i~gc3~ptd~+2~+a~+15",
  "~3ebg~put~+1k~+1y~+22~pwj~+4a~+16~+34~pxv~+3b~+2~+g~3eie~+8l~3emt~dnv~q9d~+2~+z~3g0a~qck~3f3g~dp9~+4~3f75~+81~dpn~qj4~+c~+b~+2~+1s~qko~+3q~qn6~+47~qp4~+1v~+r~dsn~qu9~+w~dtl~qxs~+3~3giv~r13~+7~dv9~r22~aez~3gz2~+54~dz2~+9~rds~+25~+4d~+5n~3hrc~rsb~+m~+2i~+2k~3i9b~2upw~s0b~rzw~+1g~2uvy~s7o~+2s~3jki~+r~s",
  "k4~+2l~+w~3ju6~snv~svs~+4f~+1~sxo~t89~+s~3ksa~tjf~ej9~tkn~3l2v~eli~ts3~iia~tur~3ltx~+5x~epa~+8~u00~3mdm~er6~3mhi~u17~~+u~3mpi~u76~eur~u95~+3i~+r~+1o~ez2~3nsg~umq~uv4~+59~f66~+v~v3b~3owe~f7c~3oxx~+7d~+3n~vcr~f9y~veh~+5~+7~+a~+7~+11~3pxc"]

def decompositions : RangeTable := .ofLines decompositionLines

end Unicode

end Switchboard
