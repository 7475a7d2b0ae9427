/-!
# Cases of letters

Mappings of characters, as words of hexadecimal numbers: a target, and the first and the last of
the characters of a span, with the step between them where that is not one. The first has the
target, and the others follow it.
-/

namespace LivePage.Text.Table

/-- Uppercase of characters that are not ASCII, in Unicode 17. -/
def toUpper : String :=
  "39C-B5 C0-E0-F6 D8-F8-FE 178-FF 100-101-12F-2 49-131 132-133-137-2 139-13A-148-2
    14A-14B-177-2 179-17A-17E-2 53-17F 243-180 182-183-185-2 187-188 18B-18C 191-192 1F6-195
    198-199 23D-19A A7DC-19B 220-19E 1A0-1A1-1A5-2 1A7-1A8 1AC-1AD 1AF-1B0 1B3-1B4-1B6-2
    1B8-1B9 1BC-1BD 1F7-1BF 1C4-1C5 1C4-1C6 1C7-1C8 1C7-1C9 1CA-1CB 1CA-1CC 1CD-1CE-1DC-2
    18E-1DD 1DE-1DF-1EF-2 1F1-1F2 1F1-1F3 1F4-1F5 1F8-1F9-21F-2 222-223-233-2 23B-23C
    2C7E-23F-240 241-242 246-247-24F-2 2C6F-250 2C6D-251 2C70-252 181-253 186-254 189-256-257
    18F-259 190-25B A7AB-25C 193-260 A7AC-261 194-263 A7CB-264 A78D-265 A7AA-266 197-268
    196-269 A7AE-26A 2C62-26B A7AD-26C 19C-26F 2C6E-271 19D-272 19F-275 2C64-27D 1A6-280
    A7C5-282 1A9-283 A7B1-287 1AE-288 244-289 1B1-28A-28B 245-28C 1B7-292 A7B2-29D A7B0-29E
    399-345 370-371-373-2 376-377 3FD-37B-37D 386-3AC 388-3AD-3AF 391-3B1-3C1 3A3-3C2
    3A3-3C3-3CB 38C-3CC 38E-3CD-3CE 392-3D0 398-3D1 3A6-3D5 3A0-3D6 3CF-3D7 3D8-3D9-3EF-2
    39A-3F0 3A1-3F1 3F9-3F2 37F-3F3 395-3F5 3F7-3F8 3FA-3FB 410-430-44F 400-450-45F
    460-461-481-2 48A-48B-4BF-2 4C1-4C2-4CE-2 4C0-4CF 4D0-4D1-52F-2 531-561-586 1C90-10D0-10FA
    1CBD-10FD-10FF 13F0-13F8-13FD 412-1C80 414-1C81 41E-1C82 421-1C83-1C84 422-1C85 42A-1C86
    462-1C87 A64A-1C88 1C89-1C8A A77D-1D79 2C63-1D7D A7C6-1D8E 1E00-1E01-1E95-2 1E60-1E9B
    1EA0-1EA1-1EFF-2 1F08-1F00-1F07 1F18-1F10-1F15 1F28-1F20-1F27 1F38-1F30-1F37 1F48-1F40-1F45
    1F59-1F51-1F57-2 1F68-1F60-1F67 1FBA-1F70-1F71 1FC8-1F72-1F75 1FDA-1F76-1F77 1FF8-1F78-1F79
    1FEA-1F7A-1F7B 1FFA-1F7C-1F7D 1FB8-1FB0-1FB1 399-1FBE 1FD8-1FD0-1FD1 1FE8-1FE0-1FE1
    1FEC-1FE5 2132-214E 2160-2170-217F 2183-2184 24B6-24D0-24E9 2C00-2C30-2C5F 2C60-2C61
    23A-2C65 23E-2C66 2C67-2C68-2C6C-2 2C72-2C73 2C75-2C76 2C80-2C81-2CE3-2 2CEB-2CEC-2CEE-2
    2CF2-2CF3 10A0-2D00-2D25 10C7-2D27 10CD-2D2D A640-A641-A66D-2 A680-A681-A69B-2
    A722-A723-A72F-2 A732-A733-A76F-2 A779-A77A-A77C-2 A77E-A77F-A787-2 A78B-A78C
    A790-A791-A793-2 A7C4-A794 A796-A797-A7A9-2 A7B4-A7B5-A7C3-2 A7C7-A7C8-A7CA-2
    A7CC-A7CD-A7DB-2 A7F5-A7F6 A7B3-AB53 13A0-AB70-ABBF FF21-FF41-FF5A 10400-10428-1044F
    104B0-104D8-104FB 10570-10597-105A1 1057C-105A3-105B1 1058C-105B3-105B9 10594-105BB-105BC
    10C80-10CC0-10CF2 10D50-10D70-10D85 118A0-118C0-118DF 16E40-16E60-16E7F 16EA0-16EBB-16ED3
    1E900-1E922-1E943"

/-- Lowercase of characters that are not ASCII, in Unicode 17. -/
def toLower : String :=
  "E0-C0-D6 F8-D8-DE 101-100-12E-2 133-132-136-2 13A-139-147-2 14B-14A-176-2 FF-178
    17A-179-17D-2 253-181 183-182-184-2 254-186 188-187 256-189-18A 18C-18B 1DD-18E 259-18F
    25B-190 192-191 260-193 263-194 269-196 268-197 199-198 26F-19C 272-19D 275-19F
    1A1-1A0-1A4-2 280-1A6 1A8-1A7 283-1A9 1AD-1AC 288-1AE 1B0-1AF 28A-1B1-1B2 1B4-1B3-1B5-2
    292-1B7 1B9-1B8 1BD-1BC 1C6-1C4 1C6-1C5 1C9-1C7 1C9-1C8 1CC-1CA 1CC-1CB-1DB-2 1DF-1DE-1EE-2
    1F3-1F1 1F3-1F2-1F4-2 195-1F6 1BF-1F7 1F9-1F8-21E-2 19E-220 223-222-232-2 2C65-23A 23C-23B
    19A-23D 2C66-23E 242-241 180-243 289-244 28C-245 247-246-24E-2 371-370-372-2 377-376
    3F3-37F 3AC-386 3AD-388-38A 3CC-38C 3CD-38E-38F 3B1-391-3A1 3C3-3A3-3AB 3D7-3CF
    3D9-3D8-3EE-2 3B8-3F4 3F8-3F7 3F2-3F9 3FB-3FA 37B-3FD-3FF 450-400-40F 430-410-42F
    461-460-480-2 48B-48A-4BE-2 4CF-4C0 4C2-4C1-4CD-2 4D1-4D0-52E-2 561-531-556 2D00-10A0-10C5
    2D27-10C7 2D2D-10CD AB70-13A0-13EF 13F8-13F0-13F5 1C8A-1C89 10D0-1C90-1CBA 10FD-1CBD-1CBF
    1E01-1E00-1E94-2 DF-1E9E 1EA1-1EA0-1EFE-2 1F00-1F08-1F0F 1F10-1F18-1F1D 1F20-1F28-1F2F
    1F30-1F38-1F3F 1F40-1F48-1F4D 1F51-1F59-1F5F-2 1F60-1F68-1F6F 1F80-1F88-1F8F 1F90-1F98-1F9F
    1FA0-1FA8-1FAF 1FB0-1FB8-1FB9 1F70-1FBA-1FBB 1FB3-1FBC 1F72-1FC8-1FCB 1FC3-1FCC
    1FD0-1FD8-1FD9 1F76-1FDA-1FDB 1FE0-1FE8-1FE9 1F7A-1FEA-1FEB 1FE5-1FEC 1F78-1FF8-1FF9
    1F7C-1FFA-1FFB 1FF3-1FFC 3C9-2126 6B-212A E5-212B 214E-2132 2170-2160-216F 2184-2183
    24D0-24B6-24CF 2C30-2C00-2C2F 2C61-2C60 26B-2C62 1D7D-2C63 27D-2C64 2C68-2C67-2C6B-2
    251-2C6D 271-2C6E 250-2C6F 252-2C70 2C73-2C72 2C76-2C75 23F-2C7E-2C7F 2C81-2C80-2CE2-2
    2CEC-2CEB-2CED-2 2CF3-2CF2 A641-A640-A66C-2 A681-A680-A69A-2 A723-A722-A72E-2
    A733-A732-A76E-2 A77A-A779-A77B-2 1D79-A77D A77F-A77E-A786-2 A78C-A78B 265-A78D
    A791-A790-A792-2 A797-A796-A7A8-2 266-A7AA 25C-A7AB 261-A7AC 26C-A7AD 26A-A7AE 29E-A7B0
    287-A7B1 29D-A7B2 AB53-A7B3 A7B5-A7B4-A7C2-2 A794-A7C4 282-A7C5 1D8E-A7C6 A7C8-A7C7-A7C9-2
    264-A7CB A7CD-A7CC-A7DA-2 19B-A7DC A7F6-A7F5 FF41-FF21-FF3A 10428-10400-10427
    104D8-104B0-104D3 10597-10570-1057A 105A3-1057C-1058A 105B3-1058C-10592 105BB-10594-10595
    10CC0-10C80-10CB2 10D70-10D50-10D65 118C0-118A0-118BF 16E60-16E40-16E5F 16EBB-16EA0-16EB8
    1E922-1E900-1E921"

/-- Characters with an uppercase of several characters, and these. -/
def upperSequence : String :=
  "DF-53-53 149-2BC-4E 1F0-4A-30C 390-399-308-301 3B0-3A5-308-301 587-535-552 1E96-48-331
    1E97-54-308 1E98-57-30A 1E99-59-30A 1E9A-41-2BE 1F50-3A5-313 1F52-3A5-313-300
    1F54-3A5-313-301 1F56-3A5-313-342 1F80-1F08-399 1F81-1F09-399 1F82-1F0A-399 1F83-1F0B-399
    1F84-1F0C-399 1F85-1F0D-399 1F86-1F0E-399 1F87-1F0F-399 1F88-1F08-399 1F89-1F09-399
    1F8A-1F0A-399 1F8B-1F0B-399 1F8C-1F0C-399 1F8D-1F0D-399 1F8E-1F0E-399 1F8F-1F0F-399
    1F90-1F28-399 1F91-1F29-399 1F92-1F2A-399 1F93-1F2B-399 1F94-1F2C-399 1F95-1F2D-399
    1F96-1F2E-399 1F97-1F2F-399 1F98-1F28-399 1F99-1F29-399 1F9A-1F2A-399 1F9B-1F2B-399
    1F9C-1F2C-399 1F9D-1F2D-399 1F9E-1F2E-399 1F9F-1F2F-399 1FA0-1F68-399 1FA1-1F69-399
    1FA2-1F6A-399 1FA3-1F6B-399 1FA4-1F6C-399 1FA5-1F6D-399 1FA6-1F6E-399 1FA7-1F6F-399
    1FA8-1F68-399 1FA9-1F69-399 1FAA-1F6A-399 1FAB-1F6B-399 1FAC-1F6C-399 1FAD-1F6D-399
    1FAE-1F6E-399 1FAF-1F6F-399 1FB2-1FBA-399 1FB3-391-399 1FB4-386-399 1FB6-391-342
    1FB7-391-342-399 1FBC-391-399 1FC2-1FCA-399 1FC3-397-399 1FC4-389-399 1FC6-397-342
    1FC7-397-342-399 1FCC-397-399 1FD2-399-308-300 1FD3-399-308-301 1FD6-399-342
    1FD7-399-308-342 1FE2-3A5-308-300 1FE3-3A5-308-301 1FE4-3A1-313 1FE6-3A5-342
    1FE7-3A5-308-342 1FF2-1FFA-399 1FF3-3A9-399 1FF4-38F-399 1FF6-3A9-342 1FF7-3A9-342-399
    1FFC-3A9-399 FB00-46-46 FB01-46-49 FB02-46-4C FB03-46-46-49 FB04-46-46-4C FB05-53-54
    FB06-53-54 FB13-544-546 FB14-544-535 FB15-544-53B FB16-54E-546 FB17-544-53D"

/-- The character that stands for all that differ from it by case only, in Unicode 16. -/
def folding : String :=
  "61-41-5A 3BC-B5 E0-C0-D6 F8-D8-DE 101-100-12E-2 133-132-136-2 13A-139-147-2 14B-14A-176-2
    FF-178 17A-179-17D-2 73-17F 253-181 183-182-184-2 254-186 188-187 256-189-18A 18C-18B
    1DD-18E 259-18F 25B-190 192-191 260-193 263-194 269-196 268-197 199-198 26F-19C 272-19D
    275-19F 1A1-1A0-1A4-2 280-1A6 1A8-1A7 283-1A9 1AD-1AC 288-1AE 1B0-1AF 28A-1B1-1B2
    1B4-1B3-1B5-2 292-1B7 1B9-1B8 1BD-1BC 1C6-1C4 1C6-1C5 1C9-1C7 1C9-1C8 1CC-1CA 1CC-1CB-1DB-2
    1DF-1DE-1EE-2 1F3-1F1 1F3-1F2-1F4-2 195-1F6 1BF-1F7 1F9-1F8-21E-2 19E-220 223-222-232-2
    2C65-23A 23C-23B 19A-23D 2C66-23E 242-241 180-243 289-244 28C-245 247-246-24E-2 3B9-345
    371-370-372-2 377-376 3F3-37F 3AC-386 3AD-388-38A 3CC-38C 3CD-38E-38F 3B1-391-3A1
    3C3-3A3-3AB 3C3-3C2 3D7-3CF 3B2-3D0 3B8-3D1 3C6-3D5 3C0-3D6 3D9-3D8-3EE-2 3BA-3F0 3C1-3F1
    3B8-3F4 3B5-3F5 3F8-3F7 3F2-3F9 3FB-3FA 37B-3FD-3FF 450-400-40F 430-410-42F 461-460-480-2
    48B-48A-4BE-2 4CF-4C0 4C2-4C1-4CD-2 4D1-4D0-52E-2 561-531-556 2D00-10A0-10C5 2D27-10C7
    2D2D-10CD 13F0-13F8-13FD 432-1C80 434-1C81 43E-1C82 441-1C83-1C84 442-1C85 44A-1C86
    463-1C87 A64B-1C88 1C8A-1C89 10D0-1C90-1CBA 10FD-1CBD-1CBF 1E01-1E00-1E94-2 1E61-1E9B
    DF-1E9E 1EA1-1EA0-1EFE-2 1F00-1F08-1F0F 1F10-1F18-1F1D 1F20-1F28-1F2F 1F30-1F38-1F3F
    1F40-1F48-1F4D 1F51-1F59-1F5F-2 1F60-1F68-1F6F 1F80-1F88-1F8F 1F90-1F98-1F9F 1FA0-1FA8-1FAF
    1FB0-1FB8-1FB9 1F70-1FBA-1FBB 1FB3-1FBC 3B9-1FBE 1F72-1FC8-1FCB 1FC3-1FCC 390-1FD3
    1FD0-1FD8-1FD9 1F76-1FDA-1FDB 3B0-1FE3 1FE0-1FE8-1FE9 1F7A-1FEA-1FEB 1FE5-1FEC
    1F78-1FF8-1FF9 1F7C-1FFA-1FFB 1FF3-1FFC 3C9-2126 6B-212A E5-212B 214E-2132 2170-2160-216F
    2184-2183 24D0-24B6-24CF 2C30-2C00-2C2F 2C61-2C60 26B-2C62 1D7D-2C63 27D-2C64
    2C68-2C67-2C6B-2 251-2C6D 271-2C6E 250-2C6F 252-2C70 2C73-2C72 2C76-2C75 23F-2C7E-2C7F
    2C81-2C80-2CE2-2 2CEC-2CEB-2CED-2 2CF3-2CF2 A641-A640-A66C-2 A681-A680-A69A-2
    A723-A722-A72E-2 A733-A732-A76E-2 A77A-A779-A77B-2 1D79-A77D A77F-A77E-A786-2 A78C-A78B
    265-A78D A791-A790-A792-2 A797-A796-A7A8-2 266-A7AA 25C-A7AB 261-A7AC 26C-A7AD 26A-A7AE
    29E-A7B0 287-A7B1 29D-A7B2 AB53-A7B3 A7B5-A7B4-A7C2-2 A794-A7C4 282-A7C5 1D8E-A7C6
    A7C8-A7C7-A7C9-2 264-A7CB A7CD-A7CC A7D1-A7D0 A7D7-A7D6-A7DA-2 19B-A7DC A7F6-A7F5
    13A0-AB70-ABBF FB06-FB05 FF41-FF21-FF3A 10428-10400-10427 104D8-104B0-104D3
    10597-10570-1057A 105A3-1057C-1058A 105B3-1058C-10592 105BB-10594-10595 10CC0-10C80-10CB2
    10D70-10D50-10D65 118C0-118A0-118BF 16E60-16E40-16E5F 1E922-1E900-1E921"

end LivePage.Text.Table
