import Mathlib.Data.List.Basic

/-!
# Tables of QPACK

The static table of header fields, and the two tables by which Huffman codes are decoded.

* **`qpackStatic`** — the static table, with the values that are documented for methods, content
  types and status codes;
* **`huffmanBit`**, **`huffmanVal`** — which positions are those of a value, and what is there.
-/

namespace Picoquic

namespace H3zero

/-- `http_header_enum_t`. -/
inductive HttpHeader
  | headerUnknown
  | pseudoHeaderAuthority
  | pseudoHeaderPath
  | headerAge
  | headerContentDisposition
  | headerContentLength
  | headerCookie
  | headerDate
  | headerEtag
  | headerIfModifiedSince
  | headerIfNoneMatch
  | headerLastModified
  | headerLink
  | headerLocation
  | headerReferer
  | headerSetCookie
  | pseudoHeaderMethod
  | pseudoHeaderScheme
  | pseudoHeaderStatus
  | headerAccept
  | headerAcceptEncoding
  | headerAcceptRanges
  | headerAccessControlAllowHeaders
  | headerAccessControlAllowOrigin
  | headerCacheControl
  | headerContentEncoding
  | headerContentType
  | headerRange
  | headerStrictTransportSecurity
  | headerVary
  | headerXContentTypeOptions
  | headerXXssProtection
  | headerAcceptLanguage
  | headerAccessControlAllowCredentials
  | headerAccessControlAllowMethods
  | headerAccessControlExposeHeaders
  | headerAccessControlRequestHeaders
  | headerAccessControlRequestMethod
  | headerAltSvc
  | headerAuthorization
  | headerContentSecurityPolicy
  | headerEarlyData
  | headerExpectCt
  | headerForwarded
  | headerIfRange
  | headerOrigin
  | headerPurpose
  | headerServer
  | headerTimingAllowOrigin
  | headerUpgradeInsecureRequests
  | headerUserAgent
  | headerXForwardedFor
  | headerXFrameOptions
  deriving DecidableEq

/-- `h3zero_method_enum`. -/
inductive H3Method
  | none
  | notSupported
  | connect
  | delete
  | get
  | head
  | options
  | post
  | put
  deriving DecidableEq

namespace H3Method

/-- The number of a method. -/
def code : H3Method → ℕ
  | none => 0
  | notSupported => 1
  | connect => 2
  | delete => 3
  | get => 4
  | head => 5
  | options => 6
  | post => 7
  | put => 8

/-- The method with a number. -/
def ofCode : ℕ → H3Method
  | 1 => notSupported
  | 2 => connect
  | 3 => delete
  | 4 => get
  | 5 => head
  | 6 => options
  | 7 => post
  | 8 => put
  | _ => none

end H3Method

/-- `h3zero_content_type_enum`. -/
inductive H3ContentType
  | none
  | notSupported
  | textHtml
  | textPlain
  | imageGif
  | imageJpeg
  | imagePng
  | dnsMessage
  | javascript
  | json
  | wwwFormUrlencoded
  | textCss
  deriving DecidableEq

namespace H3ContentType

/-- The number of a content type. -/
def code : H3ContentType → ℕ
  | none => 0
  | notSupported => 1
  | textHtml => 2
  | textPlain => 3
  | imageGif => 4
  | imageJpeg => 5
  | imagePng => 6
  | dnsMessage => 7
  | javascript => 8
  | json => 9
  | wwwFormUrlencoded => 10
  | textCss => 11

/-- The content type with a number. -/
def ofCode : ℕ → H3ContentType
  | 1 => notSupported
  | 2 => textHtml
  | 3 => textPlain
  | 4 => imageGif
  | 5 => imageJpeg
  | 6 => imagePng
  | 7 => dnsMessage
  | 8 => javascript
  | 9 => json
  | 10 => wwwFormUrlencoded
  | 11 => textCss
  | _ => none

@[simp]
theorem ofCode_code (t : H3ContentType) : ofCode t.code = t := by
  cases t <;> rfl

end H3ContentType

/-- `h3zero_qpack_static_t`. -/
structure QpackStatic where
  index : ℕ
  header : HttpHeader
  content : Option (List UInt8)
  enumAsInt : ℕ

/-- The bytes of a string. -/
def ascii (s : String) : List UInt8 := s.toList.map fun c => UInt8.ofNat c.toNat

/-- A content that is there. -/
def text (s : String) : Option (List UInt8) := some (ascii s)

/-- `qpack_static`. -/
def qpackStatic : List QpackStatic :=
  [⟨0, .pseudoHeaderAuthority, none, 0⟩,
   ⟨1, .pseudoHeaderPath, text "/", 0⟩,
   ⟨2, .headerAge, text "0", 0⟩,
   ⟨3, .headerContentDisposition, none, 0⟩,
   ⟨4, .headerContentLength, text "0", 0⟩,
   ⟨5, .headerCookie, none, 0⟩,
   ⟨6, .headerDate, none, 0⟩,
   ⟨7, .headerEtag, none, 0⟩,
   ⟨8, .headerIfModifiedSince, none, 0⟩,
   ⟨9, .headerIfNoneMatch, none, 0⟩,
   ⟨10, .headerLastModified, none, 0⟩,
   ⟨11, .headerLink, none, 0⟩,
   ⟨12, .headerLocation, none, 0⟩,
   ⟨13, .headerReferer, none, 0⟩,
   ⟨14, .headerSetCookie, none, 0⟩,
   ⟨15, .pseudoHeaderMethod, text "CONNECT", H3Method.connect.code⟩,
   ⟨16, .pseudoHeaderMethod, text "DELETE", H3Method.delete.code⟩,
   ⟨17, .pseudoHeaderMethod, text "GET", H3Method.get.code⟩,
   ⟨18, .pseudoHeaderMethod, text "HEAD", H3Method.head.code⟩,
   ⟨19, .pseudoHeaderMethod, text "OPTIONS", H3Method.options.code⟩,
   ⟨20, .pseudoHeaderMethod, text "POST", H3Method.post.code⟩,
   ⟨21, .pseudoHeaderMethod, text "PUT", H3Method.put.code⟩,
   ⟨22, .pseudoHeaderScheme, text "http", 0⟩,
   ⟨23, .pseudoHeaderScheme, text "https", 0⟩,
   ⟨24, .pseudoHeaderStatus, text "103", 103⟩,
   ⟨25, .pseudoHeaderStatus, text "200", 200⟩,
   ⟨26, .pseudoHeaderStatus, text "304", 304⟩,
   ⟨27, .pseudoHeaderStatus, text "404", 404⟩,
   ⟨28, .pseudoHeaderStatus, text "503", 503⟩,
   ⟨29, .headerAccept, text "*/*", 0⟩,
   ⟨30, .headerAccept, text "application/dns-message", 0⟩,
   ⟨31, .headerAcceptEncoding, text "gzip, deflate, br", 0⟩,
   ⟨32, .headerAcceptRanges, text "bytes", 0⟩,
   ⟨33, .headerAccessControlAllowHeaders, text "cache-control", 0⟩,
   ⟨34, .headerAccessControlAllowHeaders, text "content-type", 0⟩,
   ⟨35, .headerAccessControlAllowOrigin, text "*", 0⟩,
   ⟨36, .headerCacheControl, text "max-age=0", 0⟩,
   ⟨37, .headerCacheControl, text "max-age=2592000", 0⟩,
   ⟨38, .headerCacheControl, text "max-age=604800", 0⟩,
   ⟨39, .headerCacheControl, text "no-cache", 0⟩,
   ⟨40, .headerCacheControl, text "no-store", 0⟩,
   ⟨41, .headerCacheControl, text "public, max-age=31536000", 0⟩,
   ⟨42, .headerContentEncoding, text "br", 0⟩,
   ⟨43, .headerContentEncoding, text "gzip", 0⟩,
   ⟨44, .headerContentType, text "application/dns-message", 0⟩,
   ⟨45, .headerContentType, text "application/javascript", 0⟩,
   ⟨46, .headerContentType, text "application/json", 0⟩,
   ⟨47, .headerContentType, text "application/x-www-form-urlencoded", 0⟩,
   ⟨48, .headerContentType, text "image/gif", H3ContentType.imageGif.code⟩,
   ⟨49, .headerContentType, text "image/jpeg", H3ContentType.imageJpeg.code⟩,
   ⟨50, .headerContentType, text "image/png", H3ContentType.imagePng.code⟩,
   ⟨51, .headerContentType, text "text/css", 0⟩,
   ⟨52, .headerContentType, text "text/html; charset=utf-8", H3ContentType.textHtml.code⟩,
   ⟨53, .headerContentType, text "text/plain", H3ContentType.textPlain.code⟩,
   ⟨54, .headerContentType, text "text/plain;charset=utf-8", H3ContentType.textPlain.code⟩,
   ⟨55, .headerRange, text "bytes=0-", 0⟩,
   ⟨56, .headerStrictTransportSecurity, text "max-age=31536000", 0⟩,
   ⟨57, .headerStrictTransportSecurity, text "max-age=31536000; includesubdomains", 0⟩,
   ⟨58, .headerStrictTransportSecurity, text "max-age=31536000; includesubdomains; preload", 0⟩,
   ⟨59, .headerVary, text "accept-encoding", 0⟩,
   ⟨60, .headerVary, text "origin", 0⟩,
   ⟨61, .headerXContentTypeOptions, text "nosniff", 0⟩,
   ⟨62, .headerXXssProtection, text "1; mode=block", 0⟩,
   ⟨63, .pseudoHeaderStatus, text "100", 100⟩,
   ⟨64, .pseudoHeaderStatus, text "204", 204⟩,
   ⟨65, .pseudoHeaderStatus, text "206", 206⟩,
   ⟨66, .pseudoHeaderStatus, text "302", 302⟩,
   ⟨67, .pseudoHeaderStatus, text "400", 400⟩,
   ⟨68, .pseudoHeaderStatus, text "403", 403⟩,
   ⟨69, .pseudoHeaderStatus, text "421", 421⟩,
   ⟨70, .pseudoHeaderStatus, text "425", 425⟩,
   ⟨71, .pseudoHeaderStatus, text "500", 500⟩,
   ⟨72, .headerAcceptLanguage, none, 0⟩,
   ⟨73, .headerAccessControlAllowCredentials, text "FALSE", 0⟩,
   ⟨74, .headerAccessControlAllowCredentials, text "TRUE", 0⟩,
   ⟨75, .headerAccessControlAllowHeaders, text "*", 0⟩,
   ⟨76, .headerAccessControlAllowMethods, text "get", 0⟩,
   ⟨77, .headerAccessControlAllowMethods, text "get, post, options", 0⟩,
   ⟨78, .headerAccessControlAllowMethods, text "options", 0⟩,
   ⟨79, .headerAccessControlExposeHeaders, text "content-length", 0⟩,
   ⟨80, .headerAccessControlRequestHeaders, text "content-type", 0⟩,
   ⟨81, .headerAccessControlRequestMethod, text "get", 0⟩,
   ⟨82, .headerAccessControlRequestMethod, text "post", 0⟩,
   ⟨83, .headerAltSvc, text "clear", 0⟩,
   ⟨84, .headerAuthorization, none, 0⟩,
   ⟨85, .headerContentSecurityPolicy,
     text "script-src 'none'; object-src 'none'; base-uri 'none'", 0⟩,
   ⟨86, .headerEarlyData, text "1", 0⟩,
   ⟨87, .headerExpectCt, none, 0⟩,
   ⟨88, .headerForwarded, none, 0⟩,
   ⟨89, .headerIfRange, none, 0⟩,
   ⟨90, .headerOrigin, none, 0⟩,
   ⟨91, .headerPurpose, text "prefetch", 0⟩,
   ⟨92, .headerServer, none, 0⟩,
   ⟨93, .headerTimingAllowOrigin, text "*", 0⟩,
   ⟨94, .headerUpgradeInsecureRequests, text "1", 0⟩,
   ⟨95, .headerUserAgent, none, 0⟩,
   ⟨96, .headerXForwardedFor, none, 0⟩,
   ⟨97, .headerXFrameOptions, text "deny", 0⟩,
   ⟨98, .headerXFrameOptions, text "sameorigin", 0⟩]

/-- `h3zero_qpack_nb_static`. -/
def qpackNbStatic : ℕ := qpackStatic.length

theorem qpackNbStatic_eq : qpackNbStatic = 99 := rfl

/-- `h3zero_qpack_huffman_bit`. -/
def huffmanBit : List ℕ :=
  [249, 50, 115, 39, 38, 79, 147, 39, 38, 100, 249, 50, 114, 100, 242, 100, 228, 228, 206, 77,
   52, 228, 204, 203, 202, 114, 102, 79, 147, 39, 76, 156, 153, 62, 76, 156, 156, 153, 62, 76,
   156, 153, 60, 154, 100, 242, 102, 79, 147, 39, 38, 83, 228, 201, 201, 147, 211, 39, 38, 79,
   38, 78, 76, 178]

/-- `h3zero_qpack_huffman_val`. -/
def huffmanVal : List ℕ :=
  [44, 16, 8, 4, 2, 48, 49, 2, 50, 97, 4, 2, 99, 101, 2, 105, 111, 12, 4, 2, 115, 116, 4, 2, 32,
   37, 2, 45, 46, 8, 4, 2, 47, 51, 2, 52, 53, 4, 2, 54, 55, 2, 56, 57, 36, 16, 8, 4, 2, 61, 65,
   2, 95, 98, 4, 2, 100, 102, 2, 103, 104, 8, 4, 2, 108, 109, 2, 110, 112, 4, 2, 114, 117, 4, 2,
   58, 66, 2, 67, 68, 32, 16, 8, 4, 2, 69, 70, 2, 71, 72, 4, 2, 73, 74, 2, 75, 76, 8, 4, 2, 77,
   78, 2, 79, 80, 4, 2, 81, 82, 2, 83, 84, 16, 8, 4, 2, 85, 86, 2, 87, 89, 4, 2, 106, 107, 2,
   113, 118, 8, 4, 2, 119, 120, 2, 121, 122, 8, 4, 2, 38, 42, 2, 44, 59, 4, 2, 88, 90, 8, 4, 2,
   33, 34, 2, 40, 41, 6, 2, 63, 2, 39, 43, 6, 2, 124, 2, 35, 62, 8, 4, 2, 0, 36, 2, 64, 91, 4, 2,
   93, 126, 4, 2, 94, 125, 4, 2, 60, 96, 2, 123, 30, 10, 4, 2, 92, 195, 2, 208, 2, 128, 130, 8,
   4, 2, 131, 162, 2, 184, 194, 4, 2, 224, 226, 4, 2, 153, 161, 2, 167, 172, 46, 16, 8, 4, 2,
   176, 177, 2, 179, 209, 4, 2, 216, 217, 2, 227, 229, 14, 6, 2, 230, 2, 129, 132, 4, 2, 133,
   134, 2, 136, 146, 8, 4, 2, 154, 156, 2, 160, 163, 4, 2, 164, 169, 2, 170, 173, 40, 16, 8, 4,
   2, 178, 181, 2, 185, 186, 4, 2, 187, 189, 2, 190, 196, 8, 4, 2, 198, 228, 2, 232, 233, 8, 4,
   2, 1, 135, 2, 137, 138, 4, 2, 139, 140, 2, 141, 143, 32, 16, 8, 4, 2, 147, 149, 2, 150, 151,
   4, 2, 152, 155, 2, 157, 158, 8, 4, 2, 165, 166, 2, 168, 174, 4, 2, 175, 180, 2, 182, 183, 22,
   8, 4, 2, 188, 191, 2, 197, 231, 6, 2, 239, 2, 9, 142, 4, 2, 144, 145, 2, 148, 159, 20, 8, 4,
   2, 171, 206, 2, 215, 225, 4, 2, 236, 237, 4, 2, 199, 207, 2, 234, 235, 34, 16, 8, 4, 2, 192,
   193, 2, 200, 201, 4, 2, 202, 205, 2, 210, 213, 8, 4, 2, 218, 219, 2, 238, 240, 4, 2, 242, 243,
   2, 255, 2, 203, 204, 32, 16, 8, 4, 2, 211, 212, 2, 214, 221, 4, 2, 222, 223, 2, 241, 244, 8,
   4, 2, 245, 246, 2, 247, 248, 4, 2, 250, 251, 2, 252, 253, 30, 14, 6, 2, 254, 2, 2, 3, 4, 2, 4,
   5, 2, 6, 7, 8, 4, 2, 8, 11, 2, 12, 14, 4, 2, 15, 16, 2, 17, 18, 16, 8, 4, 2, 19, 20, 2, 21,
   23, 4, 2, 24, 25, 2, 26, 27, 8, 4, 2, 28, 29, 2, 30, 31, 4, 2, 127, 220, 2, 249, 4, 2, 10, 13,
   2, 22]

theorem length_huffman : huffmanBit.length * 8 = 512 ∧ huffmanVal.length = 512 := by
  decide +kernel

end H3zero

end Picoquic
